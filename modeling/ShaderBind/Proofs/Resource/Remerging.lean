import ShaderBind.Proofs.Layout.Lookup
import ShaderBind.Proofs.Resource.Merging

/-!
# Merging twice

A merge leaves no element behind: what it takes over is none, and an array that it puts together has
elements of its own, so that its name is not looked at again, however it ends. A step keeps this
(`settled_step`), hence so does a run (`settled_foldlM`). Resources that are no elements are all
taken over (`foldlM_step_of_forall`), and the resources of a built list build it again. So a second
merge gives back what the first one made (`merge_again`).
-/

namespace ShaderBind

/-- A resource that has elements is not taken for one, whatever its name. -/
theorem Resource.elementName?_of_elements {r : Resource} (h : r.elements ≠ []) (suffix : String) :
    r.elementName? suffix = none := by
  simp [elementName?, h]

namespace Merge

section

variable {shader : String} {stage : Stage} {suffix : String} {r : Resource} {n : ElementName}
  {parts out : List Part} {rs : List Resource}

/-- No part is an element. -/
def Settled (suffix : String) (parts : List Part) : Prop :=
  ∀ r ∈ parts.map Part.resource, r.elementName? suffix = none

theorem settled_iff : Settled suffix parts ↔
    (∀ r ∈ kept parts, r.elementName? suffix = none) ∧
      ∀ a ∈ arrays parts, a.elementName? suffix = none := by
  simp only [Settled, (perm_resources parts).mem_iff, List.forall_mem_append]

theorem settled_add (h : add shader stage r n parts = .ok out) (hparts : Settled suffix parts) :
    Settled suffix out := by
  obtain ⟨hkept, harrays⟩ := settled_iff.1 hparts
  refine settled_iff.2 ?_
  cases add_eq_ok h with
  | new _ hkept' harrays' =>
    rw [hkept']
    refine ⟨hkept, fun a ha => ?_⟩
    rcases List.mem_cons.1 (harrays'.mem_iff.1 ha) with rfl | ha
    · exact Resource.elementName?_of_elements (by simp [start]) suffix
    · exact harrays a ha
  | joined hparts' _ hjoin hkept' harrays' =>
    rw [hkept']
    refine ⟨hkept, fun b hb => ?_⟩
    rcases List.mem_cons.1 (harrays'.mem_iff.1 hb) with rfl | hb
    · obtain ⟨-, -, rfl⟩ := join_eq_ok_iff.1 hjoin
      refine Resource.elementName?_of_elements ?_ suffix
      exact List.ne_nil_of_mem (Element.mem_insert.2 (.inl rfl))
    · exact harrays b (hparts'.mem_iff.2 (List.mem_cons_of_mem _ hb))

theorem settled_step (h : step shader stage suffix parts r = .ok out)
    (hparts : Settled suffix parts) : Settled suffix out := by
  unfold step at h
  split at h
  next => exact settled_add h hparts
  next hname =>
    cases h
    intro s hs
    rw [List.map_append, List.mem_append] at hs
    rcases hs with hs | hs
    · exact hparts s hs
    · rw [List.mem_singleton.1 hs]
      exact hname

theorem settled_foldlM (h : rs.foldlM (step shader stage suffix) parts = .ok out)
    (hparts : Settled suffix parts) : Settled suffix out := by
  induction rs generalizing parts with
  | nil =>
    cases h
    exact hparts
  | cons r rs ih =>
    rw [List.foldlM_cons] at h
    obtain ⟨next, hstep, hrest⟩ := bind_eq_ok_iff.1 h
    exact ih hrest (settled_step hstep hparts)

/-- Resources that are no elements are taken over as they are. -/
theorem foldlM_step_of_forall (h : ∀ r ∈ rs, r.elementName? suffix = none) :
    rs.foldlM (step shader stage suffix) parts = .ok (parts ++ rs.map .kept) := by
  induction rs generalizing parts with
  | nil =>
    rw [List.map_nil, List.append_nil]
    rfl
  | cons r rs ih =>
    obtain ⟨hr, hrs⟩ := List.forall_mem_cons.1 h
    have hstep : step shader stage suffix parts r = .ok (parts ++ [.kept r]) := by
      simp only [step, hr]
    rw [List.foldlM_cons, List.map_cons, ← List.singleton_append, ← List.append_assoc]
    exact bind_eq_ok_iff.2 ⟨_, hstep, ih hrs⟩

end

end Merge

namespace ResourceList

/-- A list without elements is built again from its resources, and nothing is merged. -/
theorem merge_of_forall {l built : ResourceList} {suffix : String} (hsuffix : ¬ suffix.isEmpty)
    (hnone : ∀ r ∈ l.resources, r.elementName? suffix = none)
    (hbuild : build l.shader l.stage l.language l.resources = .ok built) :
    l.merge suffix =
      .ok ((built.withCombinedSamplerSuffix l.combinedSamplerSuffix).withArraySuffix
        (some suffix)) := by
  have hparts : l.resources.foldlM (Merge.step l.shader l.stage suffix) [] =
      .ok (l.resources.map .kept) := Merge.foldlM_step_of_forall hnone
  have hresources : (l.resources.map .kept).map Merge.Part.resource = l.resources := by
    rw [List.map_map]
    exact List.map_id l.resources
  rw [ResourceList.merge, if_neg hsuffix]
  refine bind_eq_ok_iff.2 ⟨_, hparts, bind_eq_ok_iff.2 ⟨built, ?_, rfl⟩⟩
  rw [hresources]
  exact hbuild

/-- A merge comes to its end with a list that is built of parts, none of which is an element. -/
theorem exists_build_of_merge {l merged : ResourceList} {suffix : String}
    (hsuffix : ¬ suffix.isEmpty) (h : l.merge suffix = .ok merged) :
    ∃ built, merged = (built.withCombinedSamplerSuffix l.combinedSamplerSuffix).withArraySuffix
        (some suffix) ∧
      build built.shader built.stage built.language built.resources = .ok built ∧
      ∀ r ∈ built.resources, r.elementName? suffix = none := by
  rw [ResourceList.merge, if_neg hsuffix] at h
  obtain ⟨parts, hparts, h⟩ := bind_eq_ok_iff.1 h
  obtain ⟨built, hbuild, h⟩ := bind_eq_ok_iff.1 h
  have hsettled : Merge.Settled suffix parts :=
    Merge.settled_foldlM hparts (by simp [Merge.Settled])
  have hagain := build_again hbuild
  obtain ⟨rfl, -⟩ := build_eq_ok hbuild
  exact ⟨_, (pure_eq_ok_iff.1 h).symm, hagain,
    fun r hr => hsettled r ((List.mergeSort_perm ..).mem_iff.1 hr)⟩

/-- Merging twice is merging once. If a list was merged, then merging the result with the same
suffix succeeds and gives it back as it is: the resources and their order, the runs and the
suffixes. No element is left in it, for a suffix that is not empty. This holds of every list, also
where the name of a merged array is itself the name of an element or that of another resource. -/
theorem merge_again {l merged : ResourceList} {suffix : String} (h : l.merge suffix = .ok merged) :
    merged.merge suffix = .ok merged ∧
      (suffix ≠ "" → ∀ r ∈ merged.resources, r.elementName? suffix = none) := by
  by_cases hsuffix : suffix.isEmpty
  · obtain rfl := String.isEmpty_iff.1 hsuffix
    exact ⟨rfl, fun hne => (hne rfl).elim⟩
  · obtain ⟨built, rfl, hbuild, hnone⟩ := exists_build_of_merge hsuffix h
    refine ⟨Eq.trans (merge_of_forall hsuffix hnone hbuild) ?_, fun _ => hnone⟩
    simp only [withCombinedSamplerSuffix, withArraySuffix, usable_usable]

/-- An array whose name ends as an element's does, and a resource of the same name. -/
def doubled : ResourceList where
  shader := "s"
  stage := .pixel
  language := .hlsl
  resources :=
    [.ofCategory "t_1_2" .sampledTexture ⟨0, 1⟩, .ofCategory "t_1" .sampledTexture ⟨0, 5⟩,
      .ofCategory "t_1_0" .sampledTexture ⟨0, 3⟩]

/-- The same resources as two arrays. The name of the first is that of an element of the second. -/
def doubledOnce : ResourceList where
  shader := "s"
  stage := .pixel
  language := .hlsl
  resources :=
    [{ Resource.ofCategory "t_1" .sampledTexture ⟨0, 3⟩ with
        arraySize := 3, elements := [⟨"t_1_0", 0, ⟨0, 3⟩⟩, ⟨"t_1_2", 2, ⟨0, 1⟩⟩] },
      { Resource.ofCategory "t" .sampledTexture ⟨0, 5⟩ with
        arraySize := 2, elements := [⟨"t_1", 1, ⟨0, 5⟩⟩] }]
  arraySuffix := some "_"

theorem merge_doubled : doubled.merge "_" = .ok doubledOnce := by
  have hnames : doubled.resources.map (Resource.elementName? · "_") =
      [some ⟨"t_1", 2⟩, some ⟨"t", 1⟩, some ⟨"t_1", 0⟩] := by
    decide +kernel
  have hparts : doubled.resources.foldlM (Merge.step "s" .pixel "_") [] =
      .ok (doubledOnce.resources.map .array) := by
    simp only [doubled, List.map_cons, List.cons.injEq] at hnames
    simp only [doubled, List.foldlM_cons, Merge.step, hnames]
    rfl
  exact merge_of_parts rfl hparts rfl (by decide)

/-- An array whose own name looks like that of an element is merged once only. -/
theorem merge_again_doubled :
    doubled.merge "_" = .ok doubledOnce ∧
      ElementName.parse? "_" doubledOnce.resources[0].name = some ⟨"t", 1⟩ ∧
      doubledOnce.merge "_" = .ok doubledOnce :=
  ⟨merge_doubled, by decide +kernel, (merge_again merge_doubled).1⟩

end ResourceList

end ShaderBind
