import ShaderBind.Proofs.Layout.Lookup
import ShaderBind.Proofs.Remap.Plan
import ShaderBind.Proofs.Resource.Merging

/-!
# Planning arrays as a whole or by elements

The elements of an array can be merged before a list is planned, or be planned one by one, each
found in the layout by its name. The one way asks whether the whole array fits into the entry, the
other way whether each index does; the one counts the slots from the array's place, the other from
the entry's. Either way an element goes to the slot of its index (`Mapping.Seats`), so both plans
succeed together and move the same declarations to the same places (`plan_merged_perm`).
-/

namespace ShaderBind

/-- The layout has a slot for the element `e` of an array, and `p` is the binding that puts it
there. -/
def Mapping.Seats (m : Mapping) (base : String) (e : Element) (p : PlannedBinding) : Prop :=
  ∃ entry, m.get? base = some entry ∧ e.index < entry.arraySize ∧
    p.before = ⟨e.name, e.place⟩ ∧ p.target.group = entry.group ∧
    p.target.binding.toNat = entry.binding.toNat + e.index.toNat

theorem Mapping.exists_seats_iff {m : Mapping} {base : String} {e : Element} :
    (∃ p, m.Seats base e p) ↔ ∃ entry, m.get? base = some entry ∧ e.index < entry.arraySize ∧
      entry.binding.toNat + e.index.toNat < UInt32.size := by
  constructor
  · rintro ⟨p, entry, hentry, hindex, -, -, hbinding⟩
    exact ⟨entry, hentry, hindex, hbinding ▸ p.target.binding.toNat_lt⟩
  · rintro ⟨entry, hentry, hindex, hword⟩
    obtain ⟨binding, hbinding⟩ := exists_addWords_iff.2 hword
    exact ⟨⟨e.name, e.place, ⟨entry.group, binding⟩⟩, entry, hentry, hindex, rfl, rfl,
      (addWords_eq_ok_iff.1 hbinding).symm⟩

namespace Remapper

/-! ## One resource -/

/-- The plan of a resource is to seat the given elements of arrays. -/
structure SeatsAll (m : Remapper) (l : ResourceList) (r : Resource)
    (es : List (String × Element)) : Prop where
  exists_iff : (∃ out, m.planResource l r = .ok out) ↔
    ∀ e ∈ es, ∃ p, m.mapping.Seats e.1 e.2 p
  mem_iff : ∀ out, m.planResource l r = .ok out →
    ∀ p, p ∈ out.2 ↔ ∃ e ∈ es, m.mapping.Seats e.1 e.2 p

variable {m : Remapper} {l : ResourceList} {suffix : String}

/-- A candidate whose own name the layout does not have is seated in its array. -/
theorem seatsAll_candidate {r : Resource} {n : ElementName} (hsuffix : m.suffixFor l = some suffix)
    (hcandidate : r.candidate? suffix = some n) (haltName : r.altName = none)
    (hname : m.mapping.get? r.name = none) :
    SeatsAll m l r [(n.base, r.asElement n.index)] := by
  obtain ⟨hsize, helements, hparse⟩ := Resource.candidate?_eq_some_iff.1 hcandidate
  rw [Resource.semanticName, haltName, Option.getD_none] at hparse
  have hslots : r.slots = [(⟨r.name, r.place⟩, 0)] := by simp [Resource.slots, helements]
  have hresolve : ∀ resolved,
      m.mapping.resolve l.shader r.name r.altName (m.suffixFor l) = .ok resolved ↔
        ∃ entry, m.mapping.get? n.base = some entry ∧ n.index < entry.arraySize ∧
          resolved = ⟨n.base, entry, some n.index⟩ := by
    intro resolved
    rw [haltName, hsuffix]
    exact Mapping.resolve_of_parse?_eq_some hname hparse l.shader
  constructor
  · simp only [exists_planResource_iff, hresolve, hslots, hsize, List.mem_singleton, forall_eq,
      Mapping.exists_seats_iff]
    constructor
    · rintro ⟨_, ⟨entry, hentry, hindex, rfl⟩, -, hword⟩
      exact ⟨entry, hentry, hindex, hword⟩
    · rintro ⟨entry, hentry, hindex, hword⟩
      exact ⟨_, ⟨entry, hentry, hindex, rfl⟩, UInt32.lt_iff_toNat_lt.1 hindex, hword⟩
  · intro out hout p
    obtain ⟨resolved, hresolved, -⟩ := exists_planResource_iff.1 ⟨out, hout⟩
    rw [mem_planned_iff hout hresolved, hslots]
    obtain ⟨entry, hentry, hindex, rfl⟩ := (hresolve _).1 hresolved
    simp only [List.mem_singleton, exists_eq_left]
    constructor
    · exact fun h => ⟨entry, hentry, hindex, h.before_eq, h.group_eq, h.binding_eq⟩
    · rintro ⟨entry', hentry', -, hbefore, hgroup, hbinding⟩
      cases hentry.symm.trans hentry'
      exact ⟨hbefore, hgroup, hbinding⟩

/-- A merged array is seated element by element. -/
theorem seatsAll_array {a : Resource} {cs : List (Resource × ElementName)}
    (hsuffix : m.suffixFor l = some suffix) (hgathers : Merge.Gathers a.name cs a)
    (hname : ElementName.parse? suffix a.name = none) :
    SeatsAll m l a (a.elements.map fun e => (a.name, e)) := by
  have hne := hgathers.elements_ne_nil
  have hslots : a.slots = a.elements.map fun e => (⟨e.name, e.place⟩, e.index) := by
    simp [Resource.slots, hne]
  have hresolve : ∀ resolved,
      m.mapping.resolve l.shader a.name a.altName (m.suffixFor l) = .ok resolved ↔
        ∃ entry, m.mapping.get? a.name = some entry ∧ resolved = ⟨a.name, entry, none⟩ := by
    intro resolved
    rw [hgathers.altName_eq, hsuffix]
    exact Mapping.resolve_of_parse?_eq_none hname l.shader
  have hindex : ∀ entry : Entry, 0 + a.arraySize.toNat ≤ entry.arraySize.toNat →
      ∀ e ∈ a.elements, e.index < entry.arraySize := by
    intro entry hfits e he
    have := hgathers.arranged.index_lt e he
    rw [UInt32.lt_iff_toNat_lt]
    omega
  constructor
  · simp only [exists_planResource_iff, hresolve, hslots, List.forall_mem_map,
      Mapping.exists_seats_iff]
    constructor
    · rintro ⟨_, ⟨entry, hentry, rfl⟩, hfits, hwords⟩ e he
      exact ⟨entry, hentry, hindex entry hfits e he, hwords e he⟩
    · intro hall
      -- the array fits if its largest element does
      obtain ⟨largest, hlargest, -, hsize⟩ := hgathers.arranged.exists_largest hne
      obtain ⟨entry, hentry, hindex, -⟩ := hall largest hlargest
      refine ⟨_, ⟨entry, hentry, rfl⟩, ?_, fun e he => ?_⟩
      · rw [hsize]
        exact (Nat.zero_add _).symm ▸ UInt32.lt_iff_toNat_lt.1 hindex
      · obtain ⟨entry', hentry', -, hword⟩ := hall e he
        cases hentry.symm.trans hentry'
        exact hword
  · intro out hout p
    obtain ⟨resolved, hresolved, hfits, -⟩ := exists_planResource_iff.1 ⟨out, hout⟩
    rw [mem_planned_iff hout hresolved, hslots]
    obtain ⟨entry, hentry, rfl⟩ := (hresolve _).1 hresolved
    simp only [List.mem_map, exists_exists_and_eq_and]
    refine exists_congr fun e => and_congr_right fun he => ⟨fun h => ?_, ?_⟩
    · exact ⟨entry, hentry, hindex entry hfits e he, h.before_eq, h.group_eq, h.binding_eq⟩
    · rintro ⟨entry', hentry', -, hbefore, hgroup, hbinding⟩
      cases hentry.symm.trans hentry'
      exact ⟨hbefore, hgroup, hbinding⟩

/-! ## All resources -/

/-- What is planned for a resource depends on the layout, the shader and the suffix alone. -/
theorem planResource_congr {m' : Remapper} {l' : ResourceList} (hmapping : m.mapping = m'.mapping)
    (hshader : l.shader = l'.shader) (hsuffix : m.suffixFor l = m'.suffixFor l') (r : Resource) :
    m.planResource l r = m'.planResource l' r := by
  simp only [planResource, hmapping, hshader, hsuffix]

theorem mem_planAll_iff {rs : List Resource} {out : List (Resource × List PlannedBinding)}
    (h : m.planAll l rs = .ok out) {p : PlannedBinding} :
    p ∈ out.flatMap Prod.snd ↔ ∃ r ∈ rs, ∃ q, m.planResource l r = .ok q ∧ p ∈ q.2 := by
  have hall := planAll_eq_ok_iff.1 h
  rw [List.mem_flatMap]
  constructor
  · rintro ⟨q, hq, hp⟩
    obtain ⟨r, hr, hplan⟩ := exists_of_forall₂ hall hq
    exact ⟨r, hr, q, hplan, hp⟩
  · rintro ⟨r, hr, q, hplan, hp⟩
    obtain ⟨q', hq', hplan'⟩ := exists_of_forall₂ hall.flip hr
    cases hplan.symm.trans hplan'
    exact ⟨q, hq', hp⟩

/-- A list whose resources are planned is planned, unless two declarations get one place. -/
theorem exists_plan_iff (hsizes : ∀ r ∈ l.resources, r.arraySize ≠ 0) :
    (∃ out, m.plan l = .ok out) ↔ ∃ out, m.planAll l l.resources = .ok out ∧
      ((out.flatMap Prod.snd).map PlannedBinding.target).Nodup := by
  have hbuild : ∀ out, m.planAll l l.resources = .ok out →
      ((∃ built, ResourceList.build l.shader l.stage l.language (out.map Prod.fst) = .ok built) ↔
        ((out.flatMap Prod.snd).map PlannedBinding.target).Nodup) := by
    intro out hout
    have hall := planAll_eq_ok_iff.1 hout
    have hsizes' : ∀ r ∈ out.map Prod.fst, r.arraySize ≠ 0 := by
      rw [List.forall_mem_map]
      intro q hq
      obtain ⟨r, hr, hplan⟩ := exists_of_forall₂ hall hq
      obtain ⟨_, _, -, -, -, hmove, -⟩ := planResource_eq_ok_iff.1 hplan
      rw [(moveResource_eq_ok hmove).arraySize_eq]
      exact hsizes r hr
    rw [ResourceList.exists_build_iff, after_of_planned (planAll_eq_ok hout), List.map_map]
    exact and_iff_right hsizes'
  constructor
  · rintro ⟨⟨moved, plan⟩, h⟩
    obtain ⟨out, built, hout, hbuilt, -⟩ := plan_eq_ok_iff.1 h
    exact ⟨out, hout, (hbuild out hout).1 ⟨built, hbuilt⟩⟩
  · rintro ⟨out, hout, hnodup⟩
    obtain ⟨built, hbuilt⟩ := (hbuild out hout).2 hnodup
    exact ⟨_, plan_eq_ok_iff.2 ⟨out, built, hout, hbuilt, rfl, rfl⟩⟩

theorem nodup_of_planAll {out : List (Resource × List PlannedBinding)}
    (hl : (l.declarations.map Declaration.place).Nodup)
    (h : m.planAll l l.resources = .ok out) : (out.flatMap Prod.snd).Nodup := by
  rw [ResourceList.declarations, before_of_planned (planAll_eq_ok h)] at hl
  exact hl.of_map.of_map

/-! ## Both ways -/

/-- A list planned by `m'` element by element, and the merged list planned by `m`. -/
structure BothWays (suffix : String) (m m' : Remapper) (l merged : ResourceList)
    (arrays : List Resource) : Prop where
  merge : Merge.Merged suffix l arrays merged
  mapping_eq : m.mapping = m'.mapping
  suffix_eq : m.suffixFor merged = some suffix
  suffix_eq' : m'.suffixFor l = some suffix
  altName_eq : ∀ r ∈ l.resources, r.altName = none
  keys : ∀ name, (m.mapping.get? name).isSome → ElementName.parse? suffix name = none
  bases : ∀ r ∈ l.resources, ∀ n, r.candidate? suffix = some n →
    ElementName.parse? suffix n.base = none

namespace BothWays

variable {m' : Remapper} {merged : ResourceList} {arrays : List Resource}
  (h : BothWays suffix m m' l merged arrays)

include h

theorem planResource_eq (r : Resource) : m.planResource merged r = m'.planResource l r :=
  planResource_congr h.mapping_eq h.merge.shader_eq (h.suffix_eq.trans h.suffix_eq'.symm) r

theorem seatsAll_of_candidate {r : Resource} (hr : r ∈ l.resources) {n : ElementName}
    (hcandidate : r.candidate? suffix = some n) :
    SeatsAll m' l r [(n.base, r.asElement n.index)] := by
  have haltName := h.altName_eq r hr
  refine seatsAll_candidate h.suffix_eq' hcandidate haltName ?_
  -- a key of the layout would not be the name of an element
  obtain ⟨-, -, hparse⟩ := Resource.candidate?_eq_some_iff.1 hcandidate
  rw [Resource.semanticName, haltName, Option.getD_none] at hparse
  rw [← h.mapping_eq, ← Option.not_isSome_iff_eq_none]
  intro hkey
  cases hparse.symm.trans (h.keys r.name hkey)

theorem seatsAll_of_array {a : Resource} (ha : a ∈ arrays) :
    SeatsAll m merged a (a.elements.map fun e => (a.name, e)) := by
  obtain ⟨r, hr, n, hcandidate, hbase⟩ := (h.merge.mem_names a.name).1 (List.mem_map_of_mem ha)
  refine seatsAll_array h.suffix_eq (h.merge.gathers a ha) ?_
  rw [← hbase]
  exact h.bases r hr n hcandidate

theorem exists_planAll_iff :
    (∃ out, m.planAll merged merged.resources = .ok out) ↔
      ∃ out, m'.planAll l l.resources = .ok out := by
  rw [Remapper.exists_planAll_iff, Remapper.exists_planAll_iff]
  constructor
  · intro hall r hr
    cases hcandidate : r.candidate? suffix with
    | none =>
      rw [← h.planResource_eq]
      exact hall r (h.merge.mem_resources.2 (.inl ⟨hr, hcandidate⟩))
    | some n =>
      rw [(h.seatsAll_of_candidate hr hcandidate).exists_iff, List.forall_mem_singleton]
      obtain ⟨a, ha, hname, he⟩ :=
        h.merge.exists_element_iff.2 ⟨r, hr, n, hcandidate, rfl, rfl⟩
      have hplan := hall a (h.merge.mem_resources.2 (.inr ha))
      rw [(h.seatsAll_of_array ha).exists_iff, List.forall_mem_map] at hplan
      rw [← h.mapping_eq, ← hname]
      exact hplan _ he
  · intro hall r hr
    rcases h.merge.mem_resources.1 hr with ⟨hr, -⟩ | ha
    · rw [h.planResource_eq]
      exact hall r hr
    · rw [(h.seatsAll_of_array ha).exists_iff, List.forall_mem_map]
      intro e he
      obtain ⟨q, hq, n, hcandidate, hbase, rfl⟩ :=
        h.merge.exists_element_iff.1 ⟨r, ha, rfl, he⟩
      have hplan := hall q hq
      rw [(h.seatsAll_of_candidate hq hcandidate).exists_iff, List.forall_mem_singleton,
        ← h.mapping_eq, hbase] at hplan
      exact hplan

theorem mem_planAll_iff {out out' : List (Resource × List PlannedBinding)}
    (hout : m.planAll merged merged.resources = .ok out)
    (hout' : m'.planAll l l.resources = .ok out') (p : PlannedBinding) :
    p ∈ out.flatMap Prod.snd ↔ p ∈ out'.flatMap Prod.snd := by
  rw [Remapper.mem_planAll_iff hout, Remapper.mem_planAll_iff hout']
  constructor
  · rintro ⟨r, hr, q, hq, hp⟩
    rcases h.merge.mem_resources.1 hr with ⟨hr, -⟩ | ha
    · exact ⟨r, hr, q, (h.planResource_eq r).symm.trans hq, hp⟩
    · obtain ⟨_, hmem, hseats⟩ := ((h.seatsAll_of_array ha).mem_iff q hq p).1 hp
      obtain ⟨e, he, rfl⟩ := List.mem_map.1 hmem
      obtain ⟨c, hc, n, hcandidate, hbase, rfl⟩ :=
        h.merge.exists_element_iff.1 ⟨r, ha, rfl, he⟩
      obtain ⟨q', hq'⟩ := Remapper.exists_planAll_iff.1 ⟨out', hout'⟩ c hc
      refine ⟨c, hc, q', hq', ((h.seatsAll_of_candidate hc hcandidate).mem_iff q' hq' p).2 ?_⟩
      rw [h.mapping_eq, ← hbase] at hseats
      exact ⟨_, List.mem_singleton_self _, hseats⟩
  · rintro ⟨r, hr, q, hq, hp⟩
    cases hcandidate : r.candidate? suffix with
    | none =>
      exact ⟨r, h.merge.mem_resources.2 (.inl ⟨hr, hcandidate⟩), q,
        (h.planResource_eq r).trans hq, hp⟩
    | some n =>
      obtain ⟨_, he, hseats⟩ := ((h.seatsAll_of_candidate hr hcandidate).mem_iff q hq p).1 hp
      cases List.mem_singleton.1 he
      obtain ⟨a, ha, hname, he⟩ :=
        h.merge.exists_element_iff.2 ⟨r, hr, n, hcandidate, rfl, rfl⟩
      have hmem := h.merge.mem_resources.2 (.inr ha)
      obtain ⟨q', hq'⟩ := Remapper.exists_planAll_iff.1 ⟨out, hout⟩ a hmem
      refine ⟨a, hmem, q', hq', ((h.seatsAll_of_array ha).mem_iff q' hq' p).2 ?_⟩
      rw [← h.mapping_eq] at hseats
      exact ⟨_, List.mem_map_of_mem he, hname ▸ hseats⟩

end BothWays

/-- Merging first or resolving element by element comes to the same. Let no resource have a second
name, and let neither a key of the layout nor the name of an array be the name of an element. Then
the merged list can be planned exactly if the list itself can, with the suffix as an option, and
both plans move the same declarations to the same places. -/
theorem plan_merged_perm {shader : String} {stage : Stage} {language : Language}
    {rs : List Resource} {l merged : ResourceList} {suffix : String} {mapping : Mapping}
    {options options' : RemapOptions} (hplain : ∀ r ∈ rs, r.altName = none)
    (hl : ResourceList.build shader stage language rs = .ok l) (hsuffix : suffix ≠ "")
    (hmerge : l.merge suffix = .ok merged)
    (hkeys : ∀ e ∈ mapping.entries, ElementName.parse? suffix e.1 = none)
    (hbases : ∀ r ∈ rs, ∀ n ∈ r.candidate? suffix, ElementName.parse? suffix n.base = none)
    (hoption : options.arraySuffix = none ∨ options.arraySuffix = some suffix)
    (hoption' : options'.arraySuffix = some suffix) :
    ((∃ out, (⟨mapping, options⟩ : Remapper).plan merged = .ok out) ↔
        ∃ out, (⟨mapping, options'⟩ : Remapper).plan l = .ok out) ∧
      ∀ moved plan moved' plan',
        (⟨mapping, options⟩ : Remapper).plan merged = .ok (moved, plan) →
        (⟨mapping, options'⟩ : Remapper).plan l = .ok (moved', plan') → plan.Perm plan' := by
  obtain ⟨-, hsizes, hnodup⟩ := ResourceList.build_eq_ok (ResourceList.build_again hl)
  obtain ⟨arrays, hmerged⟩ := Merge.merged_of_merge hsizes hsuffix hmerge
  have hmem : ∀ r ∈ l.resources, r ∈ rs := by
    obtain ⟨rfl, -⟩ := ResourceList.build_eq_ok hl
    exact fun r hr => (List.mergeSort_perm ..).mem_iff.1 hr
  have hways : BothWays suffix ⟨mapping, options⟩ ⟨mapping, options'⟩ l merged arrays :=
    { merge := hmerged
      mapping_eq := rfl
      suffix_eq := by rcases hoption with h | h <;> simp [suffixFor, h, hmerged.arraySuffix_eq]
      suffix_eq' := by simp [suffixFor, hoption']
      altName_eq := fun r hr => hplain r (hmem r hr)
      keys := fun name hname => by
        obtain ⟨entry, hentry⟩ := Option.isSome_iff_exists.1 hname
        exact hkeys (name, entry) (Mapping.mem_entries_of_get? hentry)
      bases := fun r hr n hn => hbases r (hmem r hr) n hn }
  have hsizes' : ∀ r ∈ merged.resources, r.arraySize ≠ 0 := by
    intro r hr
    rcases hmerged.mem_resources.1 hr with ⟨hr, -⟩ | ha
    · exact hsizes r hr
    · exact (hmerged.gathers r ha).arraySize_ne_zero
  have hnodup' := (hmerged.declarations_perm.map Declaration.place).nodup_iff.2 hnodup
  -- no binding comes twice in a plan, so it is enough to compare what the plans hold
  have hperm : ∀ out out',
      (⟨mapping, options⟩ : Remapper).planAll merged merged.resources = .ok out →
      (⟨mapping, options'⟩ : Remapper).planAll l l.resources = .ok out' →
      (out.flatMap Prod.snd).Perm (out'.flatMap Prod.snd) := fun out out' hout hout' =>
    (List.perm_ext_iff_of_nodup (nodup_of_planAll hnodup' hout) (nodup_of_planAll hnodup hout')).2
      (hways.mem_planAll_iff hout hout')
  constructor
  · rw [exists_plan_iff hsizes', exists_plan_iff hsizes]
    constructor
    · rintro ⟨out, hout, htargets⟩
      obtain ⟨out', hout'⟩ := hways.exists_planAll_iff.1 ⟨out, hout⟩
      exact ⟨out', hout', ((hperm out out' hout hout').map _).nodup_iff.1 htargets⟩
    · rintro ⟨out', hout', htargets⟩
      obtain ⟨out, hout⟩ := hways.exists_planAll_iff.2 ⟨out', hout'⟩
      exact ⟨out, hout, ((hperm out out' hout hout').map _).nodup_iff.2 htargets⟩
  · intro moved plan moved' plan' hplan hplan'
    obtain ⟨out, _, hout, -, -, rfl⟩ := plan_eq_ok_iff.1 hplan
    obtain ⟨out', _, hout', -, -, rfl⟩ := plan_eq_ok_iff.1 hplan'
    exact hperm out out' hout hout'

/-- Room for the arrays of the scattered list and for its other resources. -/
def roomyLayout : Mapping :=
  .ofEntries [("t", { group := 1, binding := 4, arraySize := 3 }),
    ("v", { group := 1, binding := 0, arraySize := 2 }),
    ("u", { group := 0, binding := 0 }), ("s", { group := 2, binding := 0 })]

/-- Elements out of order, planned as an array and one by one. -/
theorem plan_merged_perm_scattered :
    ∃ moved plan moved' plan',
      (⟨roomyLayout, {}⟩ : Remapper).plan ResourceList.gapped = .ok (moved, plan) ∧
        (⟨roomyLayout, { arraySuffix := some "_" }⟩ : Remapper).plan ResourceList.scattered =
          .ok (moved', plan') ∧
        plan.map PlannedBinding.name = ["u", "t_0", "t_2", "v_1", "s"] ∧
        plan'.map PlannedBinding.name = ["u", "t_2", "v_1", "t_0", "s"] ∧
        plan.Perm plan' := by
  have hmerged : ((⟨roomyLayout, {}⟩ : Remapper).plan ResourceList.gapped).toOption.map
      (fun out => out.2.map PlannedBinding.name) = some ["u", "t_0", "t_2", "v_1", "s"] := by
    decide +kernel
  have hplain : ((⟨roomyLayout, { arraySuffix := some "_" }⟩ : Remapper).plan
      ResourceList.scattered).toOption.map (fun out => out.2.map PlannedBinding.name) =
        some ["u", "t_2", "v_1", "t_0", "s"] := by
    decide +kernel
  obtain ⟨⟨moved, plan⟩, hplan, hnames⟩ := exists_ok_of_map_toOption hmerged
  obtain ⟨⟨moved', plan'⟩, hplan', hnames'⟩ := exists_ok_of_map_toOption hplain
  refine ⟨moved, plan, moved', plan', hplan, hplan', hnames, hnames', ?_⟩
  have hbases : ∀ r ∈ ResourceList.scattered.resources, ∀ n ∈ r.candidate? "_",
      ElementName.parse? "_" n.base = none := by
    decide +kernel
  exact (plan_merged_perm (by decide) ResourceList.build_scattered (by decide)
    ResourceList.merge_scattered (by decide +kernel) hbases (.inl rfl) rfl).2
      moved plan moved' plan' hplan hplan'

end Remapper

end ShaderBind
