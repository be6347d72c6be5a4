import ShaderBind.Proofs.Layout.Insertion
import ShaderBind.Proofs.Remap.Completeness

/-!
# Plans stay in range

No sum or difference of words in a plan overflows, and every binding of a plan lies inside the
entry that its resource resolves to (`plan_in_range`). Three checks add up to this, each made
elsewhere: an entry that is inserted ends at the last binding or before
(`Mapping.Inserted.inRange`), an element that is found has an index inside its entry
(`Mapping.element_lt_of_resolve`), and a resource that is planned fits behind its first slot
(`PlannedResource.fits`).

A resource of a reachable list is therefore planned or fails, and fails out of range exactly if it
overruns its entry (`planResource_outcome`). A plan fails as the first resource does that fails
(`planAll_eq_error_iff`); once all are planned, what may still fail is that places are shared.
-/

namespace ShaderBind

/-! ## Failures -/

/-- The failure says that an index is out of range. -/
def ShaderError.OutOfRange (e : ShaderError) : Prop :=
  ∃ shader resource array index arraySize,
    e = .arrayIndexOutOfRange shader resource array index arraySize

theorem ResourceList.placeAll_eq_error {shader : String} {placed ds : List Declaration}
    {e : ShaderError} (h : placeAll shader placed ds = .error e) :
    ∃ reason, e = .unsupported shader reason := by
  induction ds generalizing placed with
  | nil => cases h
  | cons d ds ih =>
    unfold placeAll at h
    split at h
    · cases h
      exact ⟨_, rfl⟩
    · exact ih h

/-- Building a list never fails out of range. -/
theorem ResourceList.not_outOfRange_of_checkAll {shader : String} {placed : List Declaration}
    {rs : List Resource} {e : ShaderError} (h : checkAll shader placed rs = .error e) :
    ¬ e.OutOfRange := by
  induction rs generalizing placed with
  | nil => cases h
  | cons r rs ih =>
    unfold checkAll at h
    split at h
    · cases h
      rintro ⟨_, _, _, _, _, ⟨⟩⟩
    · rcases bind_eq_error_iff.1 h with hplace | ⟨_, -, hrest⟩
      · obtain ⟨reason, rfl⟩ := placeAll_eq_error hplace
        rintro ⟨_, _, _, _, _, ⟨⟩⟩
      · exact ih hrest

theorem ResourceList.not_outOfRange_of_build {shader : String} {stage : Stage}
    {language : Language} {rs : List Resource} {e : ShaderError}
    (h : build shader stage language rs = .error e) : ¬ e.OutOfRange := by
  rcases bind_eq_error_iff.1 h with hcheck | ⟨_, -, hpure⟩
  · exact not_outOfRange_of_checkAll hcheck
  · cases hpure

namespace Remapper

/-- The resource reaches past the end of the entry that it resolves to, or its name has an index
past that end. -/
def Overruns (m : Remapper) (l : ResourceList) (r : Resource) : Prop :=
  (∃ resolved, m.mapping.resolve l.shader r.name r.altName (m.suffixFor l) = .ok resolved ∧
    resolved.entry.arraySize.toNat < resolved.slot.toNat + r.arraySize.toNat) ∨
  ∃ e, m.mapping.resolve l.shader r.name r.altName (m.suffixFor l) = .error e ∧ e.OutOfRange

/-! ## One resource -/

section

variable {m : Remapper} {l : ResourceList} {r : Resource}

theorem planResource_of_resolve_eq_error {e : ShaderError}
    (h : m.mapping.resolve l.shader r.name r.altName (m.suffixFor l) = .error e) :
    m.planResource l r = .error (.failed e) := by
  unfold planResource
  rw [h]
  rfl

theorem exists_outOfRange (shader : String) (hsize : r.arraySize ≠ 0)
    (resolved : Mapping.Resolved) :
    ∃ e, outOfRange shader r resolved = .ok e ∧ e.OutOfRange := by
  obtain ⟨offset, hoffset⟩ := exists_subWords_iff.2 (one_le_word_iff.2 hsize)
  exact ⟨_, bind_eq_ok_iff.2 ⟨offset, hoffset, rfl⟩, _, _, _, _, _, rfl⟩

theorem planResource_of_overrun {resolved : Mapping.Resolved} {base : Coord}
    (hresolve : m.mapping.resolve l.shader r.name r.altName (m.suffixFor l) = .ok resolved)
    (hplace : resolved.place = .ok base)
    (hover : resolved.entry.arraySize.toNat < resolved.slot.toNat + r.arraySize.toNat)
    (hsize : r.arraySize ≠ 0) :
    ∃ e, m.planResource l r = .error (.failed e) ∧ e.OutOfRange := by
  obtain ⟨e, he, hrange⟩ := exists_outOfRange l.shader hsize resolved
  refine ⟨e, ?_, hrange⟩
  refine bind_eq_error_iff.2 (.inr ⟨resolved, Stop.ofError_eq_ok_iff.2 hresolve, ?_⟩)
  refine bind_eq_error_iff.2 (.inr ⟨base, Stop.ofCrash_eq_ok_iff.2 hplace, ?_⟩)
  rw [if_pos hover]
  exact bind_eq_error_iff.2 (.inr ⟨e, Stop.ofCrash_eq_ok_iff.2 he, rfl⟩)

theorem overruns_of_resolve_eq_error {e : ShaderError}
    (h : m.mapping.resolve l.shader r.name r.altName (m.suffixFor l) = .error e) :
    m.Overruns l r ↔ e.OutOfRange := by
  simp [Overruns, h]

theorem overruns_of_resolve_eq_ok {resolved : Mapping.Resolved}
    (h : m.mapping.resolve l.shader r.name r.altName (m.suffixFor l) = .ok resolved) :
    m.Overruns l r ↔ resolved.entry.arraySize.toNat < resolved.slot.toNat + r.arraySize.toNat := by
  simp [Overruns, h]

/-- A resource is planned and stays inside its entry, or fails; it never crashes. -/
theorem planResource_outcome (hm : m.mapping.Inserted) (hr : r.Sound) :
    (∃ out, m.planResource l r = .ok out ∧ ¬ m.Overruns l r) ∨
      ∃ e, m.planResource l r = .error (.failed e) ∧ (e.OutOfRange ↔ m.Overruns l r) := by
  cases hresolve : m.mapping.resolve l.shader r.name r.altName (m.suffixFor l) with
  | error e =>
    exact .inr ⟨e, planResource_of_resolve_eq_error hresolve,
      (overruns_of_resolve_eq_error hresolve).symm⟩
  | ok resolved =>
    rw [overruns_of_resolve_eq_ok hresolve]
    by_cases hover : resolved.entry.arraySize.toNat < resolved.slot.toNat + r.arraySize.toNat
    · obtain ⟨base, hplace, -⟩ := hm.exists_place hresolve
      obtain ⟨e, he, hrange⟩ := planResource_of_overrun hresolve hplace hover hr.arraySize_ne_zero
      exact .inr ⟨e, he, iff_of_true hrange hover⟩
    · -- a resource that fits ends inside its entry, and the entry ends at a word
      have hend := (hm.inRange_of_resolve hresolve).end_le
      obtain ⟨out, hout⟩ := exists_planResource_iff.2 ⟨resolved, hresolve, Nat.not_lt.1 hover,
        fun s hs => by have := Resource.index_lt_of_mem_slots hr hs; omega⟩
      exact .inl ⟨out, hout, hover⟩

end

/-! ## All resources -/

section

variable {m : Remapper} {l : ResourceList}

/-- Resources fail to be planned as the first does that cannot be planned. -/
theorem planAll_eq_error_iff {rs : List Resource} {s : Stop} :
    m.planAll l rs = .error s ↔ ∃ before r after, rs = before ++ r :: after ∧
      (∀ q ∈ before, ∃ out, m.planResource l q = .ok out) ∧ m.planResource l r = .error s := by
  induction rs with
  | nil => simp [planAll]
  | cons q rs ih =>
    rw [planAll, bind_eq_error_iff]
    constructor
    · rintro (hq | ⟨p, hp, hrest⟩)
      · exact ⟨[], q, rs, rfl, by simp, hq⟩
      · rcases bind_eq_error_iff.1 hrest with hrest | ⟨_, -, hpure⟩
        · obtain ⟨before, r, after, rfl, hbefore, hr⟩ := ih.1 hrest
          exact ⟨q :: before, r, after, rfl, List.forall_mem_cons.2 ⟨⟨p, hp⟩, hbefore⟩, hr⟩
        · cases hpure
    · rintro ⟨_ | ⟨_, before⟩, r, after, hrs, hbefore, hr⟩
      · cases hrs
        exact .inl hr
      · cases hrs
        obtain ⟨⟨p, hp⟩, hbefore⟩ := List.forall_mem_cons.1 hbefore
        exact .inr ⟨p, hp, bind_eq_error_iff.2 (.inl (ih.2 ⟨before, r, after, rfl, hbefore, hr⟩))⟩

theorem plan_eq_error_iff {s : Stop} :
    m.plan l = .error s ↔ m.planAll l l.resources = .error s ∨
      ∃ out e, m.planAll l l.resources = .ok out ∧
        ResourceList.build l.shader l.stage l.language (out.map Prod.fst) = .error e ∧
        s = .failed e := by
  have hpure : ∀ (x : ResourceList × List PlannedBinding),
      (pure x : Except Stop _) ≠ .error s := fun _ h => by cases h
  simp only [Remapper.plan, bind_eq_error_iff, Stop.ofError_eq_error_iff, hpure, and_false,
    exists_false, or_false, exists_and_left]

/-- A plan fails out of range exactly as its first resource that cannot be planned does. -/
theorem plan_outOfRange_iff :
    (∃ e, m.plan l = .error (.failed e) ∧ e.OutOfRange) ↔
      ∃ before r after, l.resources = before ++ r :: after ∧
        (∀ q ∈ before, ∃ out, m.planResource l q = .ok out) ∧
        ∃ e, m.planResource l r = .error (.failed e) ∧ e.OutOfRange := by
  constructor
  · rintro ⟨e, hplan, he⟩
    rcases plan_eq_error_iff.1 hplan with hall | ⟨_, _, -, hbuild, ⟨⟩⟩
    · obtain ⟨before, r, after, hsplit, hbefore, hr⟩ := planAll_eq_error_iff.1 hall
      exact ⟨before, r, after, hsplit, hbefore, e, hr, he⟩
    · exact absurd he (ResourceList.not_outOfRange_of_build hbuild)
  · rintro ⟨before, r, after, hsplit, hbefore, e, hr, he⟩
    exact ⟨e, plan_eq_error_iff.2 (.inl (planAll_eq_error_iff.2
      ⟨before, r, after, hsplit, hbefore, hr⟩)), he⟩

/-- A binding of a plan lies between the first and the last binding of the entry that its resource
resolves to. -/
theorem target_in_entry {moved : ResourceList} {plan : List PlannedBinding} (hl : l.Wellformed)
    (h : m.plan l = .ok (moved, plan)) {p : PlannedBinding} (hp : p ∈ plan) :
    ∃ r ∈ l.resources, p.before ∈ r.declarations ∧ ∃ resolved,
      m.mapping.resolve l.shader r.name r.altName (m.suffixFor l) = .ok resolved ∧
        p.target.group = resolved.entry.group ∧
        resolved.entry.binding.toNat ≤ p.target.binding.toNat ∧
        p.target.binding.toNat ≤
          resolved.entry.binding.toNat + (resolved.entry.arraySize.toNat - 1) := by
  obtain ⟨r, hr, _, -, _, resolved, hresource, s, hs, hfor⟩ := (plan_eq_ok h hl).slots p hp
  have hindex := Resource.index_lt_of_mem_slots (hl.sound r hr) hs
  have hfits := hresource.fits
  have hbinding := hfor.binding_eq
  have hdeclared : p.before ∈ r.declarations := by
    rw [hfor.before_eq, ← Resource.map_fst_slots]
    exact List.mem_map_of_mem hs
  exact ⟨r, hr, hdeclared, resolved, hresource.resolve_eq, hfor.group_eq, by omega, by omega⟩

end

/-- Plans never overflow and never leave the layout. Of a mapping that was put together by
insertions, and a list that came from building, merging, planning and setting suffixes: the place of
whatever is found, the plan of each resource, and the plan of the list are computed without a sum or
difference that is no word; each binding of a plan has the group of the entry that its resource
resolves to, and a binding from the entry's first to its last; and a plan fails out of range exactly
if some resource overruns its entry and all before it are planned. -/
theorem plan_in_range {m : Remapper} {l : ResourceList} (hm : m.mapping.Inserted)
    (hl : l.Reachable) :
    (∀ shader name altName suffix resolved,
        m.mapping.resolve shader name altName suffix = .ok resolved →
          ∃ place, resolved.place = .ok place ∧ place.group = resolved.entry.group ∧
            place.binding.toNat = resolved.entry.binding.toNat + resolved.slot.toNat) ∧
      (∀ r ∈ l.resources, ∀ c, m.planResource l r ≠ .error (.crashed c)) ∧
      (∀ c, m.plan l ≠ .error (.crashed c)) ∧
      (∀ moved plan, m.plan l = .ok (moved, plan) → ∀ p ∈ plan,
        ∃ r ∈ l.resources, p.before ∈ r.declarations ∧ ∃ resolved,
          m.mapping.resolve l.shader r.name r.altName (m.suffixFor l) = .ok resolved ∧
            p.target.group = resolved.entry.group ∧
            resolved.entry.binding.toNat ≤ p.target.binding.toNat ∧
            p.target.binding.toNat ≤
              resolved.entry.binding.toNat + (resolved.entry.arraySize.toNat - 1)) ∧
      ((∃ e, m.plan l = .error (.failed e) ∧ e.OutOfRange) ↔
        ∃ before r after, l.resources = before ++ r :: after ∧
          (∀ q ∈ before, ∃ out, m.planResource l q = .ok out) ∧ m.Overruns l r) := by
  have houtcome : ∀ r ∈ l.resources, _ := fun r hr =>
    planResource_outcome (l := l) hm (hl.wellformed.sound r hr)
  have hresource : ∀ r ∈ l.resources, ∀ c, m.planResource l r ≠ .error (.crashed c) := by
    intro r hr c hcrash
    rcases houtcome r hr with ⟨_, hout, -⟩ | ⟨_, hfailed, -⟩
    · cases hout.symm.trans hcrash
    · cases hfailed.symm.trans hcrash
  refine ⟨fun _ _ _ _ _ => hm.exists_place, hresource, fun c hcrash => ?_,
    fun _ _ h _ => target_in_entry hl.wellformed h, ?_⟩
  · rcases plan_eq_error_iff.1 hcrash with hall | ⟨_, _, -, -, ⟨⟩⟩
    obtain ⟨before, r, after, hsplit, -, hr⟩ := planAll_eq_error_iff.1 hall
    exact hresource r (by simp [hsplit]) c hr
  · -- both sides split the list at one resource, which fails out of range if it overruns its entry
    rw [plan_outOfRange_iff]
    refine exists_congr fun before => exists_congr fun r => exists_congr fun after =>
      and_congr_right fun hsplit => and_congr_right fun _ => ?_
    rcases houtcome r (by simp [hsplit]) with ⟨_, hout, hover⟩ | ⟨e, he, hrange⟩
    · exact ⟨fun ⟨_, he, _⟩ => (by cases hout.symm.trans he), fun h => absurd h hover⟩
    · exact ⟨fun ⟨_, he', hrange'⟩ => (by cases he.symm.trans he'; exact hrange.1 hrange'),
        fun h => ⟨e, he, hrange.2 h⟩⟩

/-- A layout with an array that begins at the last binding but one. -/
def lastBindings (size : UInt32) : Remapper where
  mapping := (Mapping.empty.insert "t"
    { group := 1, binding := UInt32.ofNat (UInt32.size - 2), arraySize := size }).1

/-- Two elements fit into two slots at the last bindings of all, and not into one. -/
theorem plan_in_range_last :
    (lastBindings 2).mapping.Inserted ∧ crossed.Reachable ∧
      (∃ moved plan, (lastBindings 2).plan crossed = .ok (moved, plan) ∧
        (⟨"t_1", ⟨0, 0⟩, ⟨1, 4294967295⟩⟩ : PlannedBinding) ∈ plan ∧
        ∀ p ∈ plan, ∃ r ∈ crossed.resources, p.before ∈ r.declarations ∧ ∃ resolved,
          (lastBindings 2).mapping.resolve "s" r.name r.altName (some "_") = .ok resolved ∧
            p.target.group = resolved.entry.group ∧
            resolved.entry.binding.toNat ≤ p.target.binding.toNat ∧
            p.target.binding.toNat ≤
              resolved.entry.binding.toNat + (resolved.entry.arraySize.toNat - 1)) ∧
      ∃ e, (lastBindings 1).plan crossed = .error (.failed e) ∧ e.OutOfRange := by
  have hinserted : ∀ size, (lastBindings size).mapping.Inserted := fun size => .insert _ _ .empty
  have hplan : ((lastBindings 2).plan crossed).toOption.map Prod.snd =
      some [⟨"t_0", ⟨0, 1⟩, ⟨1, 4294967294⟩⟩, ⟨"t_1", ⟨0, 0⟩, ⟨1, 4294967295⟩⟩] := by
    decide +kernel
  obtain ⟨⟨moved, _⟩, hplan, rfl⟩ := exists_ok_of_map_toOption hplan
  have hover : (lastBindings 1).Overruns crossed crossed.resources[0] :=
    .inl ⟨⟨"t", { group := 1, binding := 4294967294, arraySize := 1 }, none⟩, by decide +kernel,
      by decide⟩
  refine ⟨hinserted 2, crossed_reachable, ⟨moved, _, hplan, by simp, ?_⟩, ?_⟩
  · exact (plan_in_range (hinserted 2) crossed_reachable).2.2.2.1 moved _ hplan
  · exact (plan_in_range (hinserted 1) crossed_reachable).2.2.2.2.2
      ⟨[], crossed.resources[0], [], rfl, by simp, hover⟩

end Remapper

end ShaderBind
