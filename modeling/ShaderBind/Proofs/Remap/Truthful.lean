import ShaderBind.Proofs.Layout.Attempts
import ShaderBind.Proofs.Remap.Range
import ShaderBind.Proofs.Remap.Reported
import ShaderBind.Proofs.Table.Contents

/-!
# Failures that tell of an index

A failure that tells of an index out of range names an array of the layout, its size and the index
(`ShaderError.Truthful`). It is made in three places, each from numbers of its own: from the index
in a name (`Mapping.truthful_of_resolve`), from the last slot that an array would take
(`truthful_of_planResource`), and from the subscript of a report. All that fails in planning, in
remapping a stage and in building a table comes from the first two, and says what is so.

The third one tells the subscript alone. Where the name of the report has an index too, the
subscript may well be below the size that it is said to exceed (`Remapper.Understates`). The array
and its size are right there as well (`outOfRange_truthful`).
-/

namespace ShaderBind

namespace ShaderError

/-- An array that the failure tells of is one of the layout, with the size that it gives. -/
def NamesArray (mapping : Mapping) (e : ShaderError) : Prop :=
  ∀ shader resource array index arraySize,
    e = .arrayIndexOutOfRange shader resource array index arraySize →
      ∃ entry, mapping.get? array = some entry ∧ entry.arraySize = arraySize

/-- An index that the failure tells of is not below the size that it gives. -/
def IndexBeyond (e : ShaderError) : Prop :=
  ∀ shader resource array index arraySize,
    e = .arrayIndexOutOfRange shader resource array index arraySize → arraySize ≤ index

/-- What the failure says of an index is so. -/
def Truthful (mapping : Mapping) (e : ShaderError) : Prop :=
  e.NamesArray mapping ∧ e.IndexBeyond

theorem namesArray_of_get? {mapping : Mapping} {shader resource array : String} {index : UInt32}
    {entry : Entry} (h : mapping.get? array = some entry) :
    (arrayIndexOutOfRange shader resource array index entry.arraySize).NamesArray mapping := by
  rintro _ _ _ _ _ ⟨⟩
  exact ⟨entry, h, rfl⟩

theorem indexBeyond_iff {shader resource array : String} {index arraySize : UInt32} :
    (arrayIndexOutOfRange shader resource array index arraySize).IndexBeyond ↔
      arraySize ≤ index := by
  refine ⟨fun h => h _ _ _ _ _ rfl, fun h => ?_⟩
  rintro _ _ _ _ _ ⟨⟩
  exact h

theorem truthful_of_not_outOfRange {mapping : Mapping} {e : ShaderError} (h : ¬ e.OutOfRange) :
    e.Truthful mapping :=
  ⟨fun _ _ _ _ _ he => absurd ⟨_, _, _, _, _, he⟩ h,
    fun _ _ _ _ _ he => absurd ⟨_, _, _, _, _, he⟩ h⟩

end ShaderError

/-! ## Names -/

/-- A name that was not found tells of an index only if it is that of an element past the end. -/
theorem Mapping.truthful_of_resolve {m : Mapping} {shader name : String}
    {altName suffix : Option String} {e : ShaderError}
    (h : m.resolve shader name altName suffix = .error e) : e.Truthful m := by
  rw [resolve_eq] at h
  split at h
  · cases h
  next hnone =>
    cases h
    cases hover : (name :: altName.toList).findSome? (m.overrun? shader suffix) with
    | none =>
      refine ShaderError.truthful_of_not_outOfRange ?_
      rintro ⟨_, _, _, _, _, ⟨⟩⟩
    | some e =>
      obtain ⟨candidate, hcandidate, hover⟩ := List.exists_of_findSome?_eq_some hover
      obtain ⟨⟨n, entry⟩, helement, rfl⟩ := Option.map_eq_some_iff.1 hover
      have hmem : Attempt.element candidate ∈ attempts name altName :=
        List.mem_flatMap.2 ⟨candidate, hcandidate, by simp [attemptsFor]⟩
      have hfails := List.findSome?_eq_none_iff.1 hnone _ hmem
      simp only [Attempt.result, helement, Option.bind_some] at hfails
      split at hfails
      · cases hfails
      next hindex =>
        rw [elementOf?_eq] at helement
        obtain ⟨_, -, hentry⟩ := Option.bind_eq_some_iff.1 helement
        obtain ⟨_, hget, hpair⟩ := Option.map_eq_some_iff.1 hentry
        cases hpair
        exact ⟨ShaderError.namesArray_of_get? hget,
          ShaderError.indexBeyond_iff.2 (UInt32.not_lt.1 hindex)⟩

namespace Remapper

variable {m : Remapper} {l : ResourceList} {r : Resource} {e : ShaderError}

/-! ## Plans and stages -/

/-- An array that does not fit tells of its last slot, or of the last word, and both lie past the
end of the entry. -/
theorem truthful_of_outOfRange {shader : String} {resolved : Mapping.Resolved}
    (hget : m.mapping.get? resolved.key = some resolved.entry)
    (hover : resolved.entry.arraySize.toNat < resolved.slot.toNat + r.arraySize.toNat)
    (h : outOfRange shader r resolved = .ok e) : e.Truthful m.mapping := by
  obtain ⟨offset, hoffset, h⟩ := bind_eq_ok_iff.1 h
  cases h
  refine ⟨ShaderError.namesArray_of_get? hget, ShaderError.indexBeyond_iff.2 ?_⟩
  have hlast := subWords_eq_ok_iff.1 hoffset
  have hsize := resolved.entry.arraySize.toNat_lt
  have hword : UInt32.size = 4294967296 := rfl
  rw [UInt32.toNat_one] at hlast
  rw [UInt32.le_iff_toNat_le, UInt32.toNat_ofNat_of_lt' (by omega)]
  omega

theorem truthful_of_planResource (h : m.planResource l r = .error (.failed e)) :
    e.Truthful m.mapping := by
  rcases bind_eq_error_iff.1 h with hresolve | ⟨resolved, hresolve, h⟩
  · obtain ⟨_, hresolve, ⟨⟩⟩ := Stop.ofError_eq_error_iff.1 hresolve
    exact Mapping.truthful_of_resolve hresolve
  rcases bind_eq_error_iff.1 h with hplace | ⟨base, -, h⟩
  · exact absurd hplace Stop.ofCrash_ne_failed
  split at h
  next hover =>
    rcases bind_eq_error_iff.1 h with h | ⟨_, hout, h⟩
    · exact absurd h Stop.ofCrash_ne_failed
    · cases h
      exact truthful_of_outOfRange (Mapping.get?_of_resolve (Stop.ofError_eq_ok_iff.1 hresolve))
        hover (Stop.ofCrash_eq_ok_iff.1 hout)
  next => exact absurd (bind_pure_eq_error_iff.1 h) Stop.ofCrash_ne_failed

theorem truthful_of_plan (h : m.plan l = .error (.failed e)) : e.Truthful m.mapping := by
  rcases plan_eq_error_iff.1 h with hall | ⟨_, _, -, hbuild, ⟨⟩⟩
  · obtain ⟨_, r, _, -, -, hr⟩ := planAll_eq_error_iff.1 hall
    exact truthful_of_planResource hr
  · exact ShaderError.truthful_of_not_outOfRange (ResourceList.not_outOfRange_of_build hbuild)

theorem not_outOfRange_of_patch {shader : String} {moves : Moves} {artifact : Artifact}
    (h : patch shader moves artifact = .error e) : ¬ e.OutOfRange := by
  unfold patch at h
  split at h
  · cases h
  · split at h
    · cases h
    · cases h
      rintro ⟨_, _, _, _, _, ⟨⟩⟩
  · cases h
    rintro ⟨_, _, _, _, _, ⟨⟩⟩

/-- A comparison fails only as a mismatch. -/
theorem not_outOfRange_of_check {shader resource : String} {expected actual : Coord}
    (h : (m.check shader resource expected actual).Stops (.failed e)) : ¬ e.OutOfRange := by
  have hends := (check_ends m shader resource expected actual).eq_of_stops h
  split at hends
  · cases hends
  · split at hends
    · cases hends
      rintro ⟨_, _, _, _, _, ⟨⟩⟩
    · cases hends

theorem not_outOfRange_of_checks {shader : String} {plan : List PlannedBinding}
    (h : (forIn plan PUnit.unit fun p _ => do
      let _ ← m.check shader p.name p.target p.source
      return ForInStep.yield PUnit.unit : Noted PUnit).Stops (.failed e)) : ¬ e.OutOfRange := by
  induction plan with
  | nil => exact absurd h Noted.not_stops_pure
  | cons p plan ih =>
    rw [List.forIn_cons] at h
    rcases h.bind_inv with h | ⟨_, hstep, h⟩
    · rcases h.bind_inv with h | ⟨_, -, h⟩
      · exact not_outOfRange_of_check h
      · exact absurd h Noted.not_stops_pure
    · obtain ⟨_, -, hstep⟩ := hstep.bind_inv
      cases Noted.returns_pure_iff.1 hstep
      exact ih h

/-- Behind the plan of a stage nothing more tells of an index. -/
theorem truthful_of_remapStage {artifact : Artifact}
    (h : (m.remapStage artifact l).Stops (.failed e)) : e.Truthful m.mapping := by
  rcases h.bind_inv with h | ⟨⟨moved, plan⟩, -, h⟩
  · exact truthful_of_plan (Noted.stops_ofStop_iff.1 h)
  refine ShaderError.truthful_of_not_outOfRange ?_
  cases hmode : m.options.mode with
  | verifyOnly =>
    simp only [hmode] at h
    rcases h.bind_inv with h | ⟨_, -, h⟩
    · exact not_outOfRange_of_checks h
    · exact absurd h Noted.not_stops_pure
  | patch =>
    simp only [hmode] at h
    rcases h.bind_inv with h | ⟨⟨patched, found⟩, -, h⟩
    · obtain ⟨_, hpatch, ⟨⟩⟩ := Noted.stops_ofError_iff.1 h
      exact not_outOfRange_of_patch hpatch
    split at h
    · cases Noted.stops_fail_iff.1 h
      rintro ⟨_, _, _, _, _, ⟨⟩⟩
    · exact absurd h Noted.not_stops_pure

/-! ## Tables -/

theorem truthful_of_build {mapping : Mapping} {device : Device} {stages : List ResourceList}
    (h : BindingTable.build mapping device stages = .error e) : e.Truthful mapping := by
  obtain ⟨_, u, _, -, -, hrefused⟩ := BindingTable.foldlM_addStage_eq_error_iff.1 h
  cases hrefused with
  | unresolved hresolve => exact Mapping.truthful_of_resolve hresolve
  | excluded _ _ =>
    refine ShaderError.truthful_of_not_outOfRange ?_
    rintro ⟨_, _, _, _, _, ⟨⟩⟩

/-! ## Reports -/

/-- The failure tells of the report's subscript, which is below the size of the array; only with the
index in the report's name does it reach the size. -/
def Understates (m : Remapper) (shader : String) (b : ReportedBinding) (e : ShaderError) : Prop :=
  ∃ resolved n, m.RefersTo shader b resolved n ∧ n < resolved.entry.arraySize ∧
    resolved.entry.arraySize.toNat ≤ resolved.slot.toNat + n.toNat ∧
    e = .arrayIndexOutOfRange shader b.name resolved.key n resolved.entry.arraySize

theorem Understates.not_indexBeyond {shader : String} {b : ReportedBinding}
    (h : m.Understates shader b e) : ¬ e.IndexBeyond := by
  obtain ⟨resolved, n, -, hlt, -, rfl⟩ := h
  rw [ShaderError.indexBeyond_iff]
  exact UInt32.not_le.2 hlt

/-- Without an index in its name nothing is understated. -/
theorem not_understates_of_element_eq_none {shader : String} {b : ReportedBinding}
    (h : ∀ resolved n, m.RefersTo shader b resolved n → resolved.element = none) :
    ¬ m.Understates shader b e := by
  rintro ⟨resolved, n, href, hlt, hend, -⟩
  rw [Mapping.Resolved.slot_eq_zero (h resolved n href), UInt32.toNat_zero, Nat.zero_add] at hend
  exact Nat.not_lt.2 hend (UInt32.lt_iff_toNat_lt.1 hlt)

/-- A report that fails names its array, and its index unless that is understated. -/
theorem truthful_or_understates {shader : String} {b : ReportedBinding}
    (h : (m.verifyOne shader b).Stops (.failed e)) :
    e.NamesArray m.mapping ∧ (e.IndexBeyond ∨ m.Understates shader b e) := by
  rcases h.bind_inv with h | ⟨resolved, hresolve, h⟩
  · obtain ⟨_, hresolve, ⟨⟩⟩ := Noted.stops_ofError_iff.1 h
    exact And.imp_right .inl (Mapping.truthful_of_resolve hresolve)
  rw [Noted.returns_ofError_iff] at hresolve
  rcases h.bind_inv with h | ⟨base, -, h⟩
  · exact absurd (Noted.stops_ofStop_iff.1 h) Stop.ofCrash_ne_failed
  rcases h.bind_inv with h | ⟨last, hlast, h⟩
  · exact absurd (Noted.stops_ofStop_iff.1 h) Stop.ofCrash_ne_failed
  have hlast := addWords_eq_ok_iff.1 (Stop.ofCrash_eq_ok_iff.1 (Noted.returns_ofStop_iff.1 hlast))
  split at h
  next hend =>
    cases Noted.stops_fail_iff.1 h
    refine ⟨ShaderError.namesArray_of_get? (Mapping.get?_of_resolve hresolve), ?_⟩
    rw [ShaderError.indexBeyond_iff, ← UInt32.not_lt]
    refine (Decidable.em _).symm.imp_right fun hlt => ?_
    exact ⟨resolved, _, refersTo_iff.2 ⟨hresolve, rfl⟩, hlt,
      hlast ▸ UInt32.le_iff_toNat_le.1 hend, rfl⟩
  next =>
    rcases h.bind_inv with h | ⟨_, -, h⟩
    · exact absurd (Noted.stops_ofStop_iff.1 h) Stop.ofCrash_ne_failed
    · exact And.imp_right .inl
        (ShaderError.truthful_of_not_outOfRange (not_outOfRange_of_check h))

/-- Reports fail where one of them does. -/
theorem exists_stops_of_verifyReported {shader : String} {reports : List ReportedBinding}
    {s : Stop} (h : (m.verifyReported shader reports).Stops s) :
    ∃ b ∈ reports, (m.verifyOne shader b).Stops s := by
  induction reports with
  | nil => exact absurd h Noted.not_stops_pure
  | cons b reports ih =>
    rcases h.bind_inv with h | ⟨_, -, h⟩
    · exact ⟨b, List.mem_cons_self, h⟩
    rcases h.bind_inv with h | ⟨_, -, h⟩
    · obtain ⟨c, hc, h⟩ := ih h
      exact ⟨c, List.mem_cons_of_mem _ hc, h⟩
    · exact absurd h Noted.not_stops_pure

/-- What is told of an index is so, but for reports. Where a name is not found, a list cannot be
planned, a stage cannot be remapped or a table cannot be built, a failure that tells of an index
names an array of the layout with its size, and an index that is not below the size. Where reports
are judged, the array and its size are right too, and so is the index, unless it is a subscript that
only together with the index in the report's name reaches the size; which does not happen where the
names are those of the layout. -/
theorem outOfRange_truthful (m : Remapper) :
    (∀ shader name altName suffix e,
        m.mapping.resolve shader name altName suffix = .error e → e.Truthful m.mapping) ∧
      (∀ l e, m.plan l = .error (.failed e) → e.Truthful m.mapping) ∧
      (∀ artifact l e, (m.remapStage artifact l).outcome.1 = .error (.failed e) →
        e.Truthful m.mapping) ∧
      (∀ device stages e, BindingTable.build m.mapping device stages = .error e →
        e.Truthful m.mapping) ∧
      (∀ shader reports e, (m.verifyReported shader reports).outcome.1 = .error (.failed e) →
        e.NamesArray m.mapping ∧
        (e.IndexBeyond ↔ ¬ ∃ b ∈ reports, m.Understates shader b e) ∧
        ((∀ b ∈ reports, ∀ resolved n, m.RefersTo shader b resolved n → resolved.element = none) →
          e.Truthful m.mapping)) := by
  refine ⟨fun _ _ _ _ _ => Mapping.truthful_of_resolve, fun _ _ => truthful_of_plan,
    fun _ _ _ h => truthful_of_remapStage (Noted.stops_of_outcome h),
    fun _ _ _ => truthful_of_build, fun shader reports e h => ?_⟩
  obtain ⟨b, hb, hstops⟩ := exists_stops_of_verifyReported (Noted.stops_of_outcome h)
  obtain ⟨hnames, hindex⟩ := truthful_or_understates hstops
  have hbeyond : e.IndexBeyond ↔ ¬ ∃ c ∈ reports, m.Understates shader c e := by
    constructor
    · rintro hbeyond ⟨c, -, hc⟩
      exact hc.not_indexBeyond hbeyond
    · intro hnone
      exact hindex.resolve_right fun hunder => hnone ⟨b, hb, hunder⟩
  refine ⟨hnames, hbeyond, fun hwhole => ⟨hnames, hbeyond.2 ?_⟩⟩
  rintro ⟨c, hc, hunder⟩
  exact not_understates_of_element_eq_none (hwhole c hc) hunder

/-- Indices behind ten slots, asked for by name and reported. -/
theorem outOfRange_truthful_tenSlots :
    (∃ e, (tenSlots .error).mapping.resolve "s" "t_10" none (some "_") = .error e ∧
        e.OutOfRange ∧ e.Truthful (tenSlots .error).mapping) ∧
      ∃ e, ((tenSlots .error).verifyReported "s" [⟨"t[10]", ⟨0, 14⟩⟩]).outcome.1 =
          .error (.failed e) ∧ e.OutOfRange ∧ e.Truthful (tenSlots .error).mapping := by
  obtain ⟨hresolve, -, -, -, hreports⟩ := outOfRange_truthful (tenSlots .error)
  have htold : (tenSlots .error).mapping.resolve "s" "t_10" none (some "_") =
      .error (.arrayIndexOutOfRange "s" "t_10" "t" 10 10) := by
    decide +kernel
  have hreported : ((tenSlots .error).verifyReported "s" [⟨"t[10]", ⟨0, 14⟩⟩]).outcome.1 =
      .error (.failed (.arrayIndexOutOfRange "s" "t[10]" "t" 10 10)) := by
    decide +kernel
  have hwhole : (tenSlots .error).mapping.resolve "s" (splitSubscript "t[10]").1 none (some "_") =
      .ok ⟨"t", { group := 0, binding := 4, arraySize := 10 }, none⟩ := by
    decide +kernel
  refine ⟨⟨_, htold, ⟨_, _, _, _, _, rfl⟩, hresolve _ _ _ _ _ htold⟩,
    _, hreported, ⟨_, _, _, _, _, rfl⟩, (hreports _ _ _ hreported).2.2 ?_⟩
  intro b hb resolved n href
  cases List.mem_singleton.1 hb
  cases hwhole.symm.trans (refersTo_iff.1 href).1
  rfl

/-- A report of slot 11 of ten is told with the index 3. -/
theorem verifyReported_not_truthful :
    ((tenSlots .error).verifyReported "s" [⟨"t_8[3]", ⟨0, 15⟩⟩]).outcome.1 =
        .error (.failed (.arrayIndexOutOfRange "s" "t_8[3]" "t" 3 10)) ∧
      ¬ (ShaderError.arrayIndexOutOfRange "s" "t_8[3]" "t" 3 10).Truthful
        (tenSlots .error).mapping := by
  refine ⟨by decide +kernel, fun h => ?_⟩
  exact absurd (ShaderError.indexBeyond_iff.1 h.2) (by decide)

end Remapper

end ShaderBind
