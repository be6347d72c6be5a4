import ShaderBind.Proofs.Remap.Completeness
import ShaderBind.Proofs.Table.Binding
import ShaderBind.Table.Pipeline

/-!
# How a pipeline is made

A pipeline that was made has stages that agree on what they share, a remapped stage for each
shader, and the table of the remapped lists (`check_of_build`, `build_returns`). Remapping touches
nothing of a resource but the places of its declarations (`Resource.Relocated`), and of a list
nothing that names are looked up by (`ResourceList.Relocated`). So the table finds the resources of
the remapped lists as it would find those of the shaders (`Use.Relocated.resolve_eq`), and what is
said of the one can be said of the other (`forall_admitted_iff`, `exists_foundAs_iff`).
-/

namespace ShaderBind

/-! ## What remapping keeps -/

/-- The same resource, but for the places of its declarations. -/
def Resource.Relocated (r r' : Resource) : Prop :=
  ∃ place elements, r' = { r with place, elements }

/-- A list of the same resources at other places, whose suffix takes the same names apart. -/
structure ResourceList.Relocated (l l' : ResourceList) : Prop where
  shader_eq : l'.shader = l.shader
  stage_eq : l'.stage = l.stage
  suffix_eq : usable l'.arraySuffix = usable l.arraySuffix
  exists_after : ∀ r ∈ l.resources, ∃ r' ∈ l'.resources, r.Relocated r'
  exists_before : ∀ r' ∈ l'.resources, ∃ r ∈ l.resources, r.Relocated r'

theorem ResourceList.Relocated.refl (l : ResourceList) : l.Relocated l :=
  ⟨rfl, rfl, rfl, fun r hr => ⟨r, hr, _, _, rfl⟩, fun r hr => ⟨r, hr, _, _, rfl⟩⟩

namespace Remapper

variable {m : Remapper} {l : ResourceList}

theorem relocated_of_moveResource {base : Coord} {r r' : Resource}
    (h : moveResource base r = .ok r') : r.Relocated r' := by
  unfold moveResource at h
  split at h
  · cases h
    exact ⟨base, r.elements, rfl⟩
  · obtain ⟨elements, -, h⟩ := bind_eq_ok_iff.1 h
    cases h
    exact ⟨_, elements, rfl⟩

theorem relocated_of_planResource {r : Resource} {out : Resource × List PlannedBinding}
    (h : m.planResource l r = .ok out) : r.Relocated out.1 := by
  obtain ⟨_, _, -, -, -, hmove, -⟩ := planResource_eq_ok_iff.1 h
  exact relocated_of_moveResource hmove

theorem relocated_of_plan {moved : ResourceList} {plan : List PlannedBinding}
    (h : m.plan l = .ok (moved, plan)) : l.Relocated moved := by
  obtain ⟨out, built, hout, hbuild, rfl, -⟩ := plan_eq_ok_iff.1 h
  obtain ⟨rfl, -⟩ := ResourceList.build_eq_ok hbuild
  have hall : List.Forall₂ (fun r p => r.Relocated p.1) l.resources out :=
    (planAll_eq_ok_iff.1 hout).imp fun _ _ => relocated_of_planResource
  have hmem : ∀ {r' : Resource}, r' ∈ ResourceList.arrange (out.map Prod.fst) ↔
      ∃ p ∈ out, p.1 = r' := by
    intro r'
    rw [ResourceList.arrange, List.mem_mergeSort, List.mem_map]
  refine ⟨rfl, rfl, ResourceList.usable_usable _, fun r hr => ?_, fun r' hr' => ?_⟩
  · obtain ⟨p, hp, hr⟩ := exists_of_forall₂ hall.flip hr
    exact ⟨p.1, hmem.2 ⟨p, hp, rfl⟩, hr⟩
  · obtain ⟨p, hp, rfl⟩ := hmem.1 hr'
    exact exists_of_forall₂ hall hp

theorem relocated_of_remapStage {artifact : Artifact} {stage : RemappedStage}
    (h : (m.remapStage artifact l).Returns stage) : l.Relocated stage.resources := by
  cases hmode : m.options.mode with
  | patch => exact relocated_of_plan ((remapStage_patch_iff hmode).1 h).1
  | verifyOnly =>
    obtain ⟨_, -, h⟩ := h.bind_inv
    simp only [hmode] at h
    obtain ⟨_, -, h⟩ := h.bind_inv
    cases Noted.returns_pure_iff.1 h
    exact .refl l

end Remapper

/-! ## The lists of a pipeline -/

namespace RemappedPipeline

variable {name : String} {shaders : List Compiled} {m : Remapper} {device : Device}
  {pipeline : RemappedPipeline}

/-- The resources of all shaders. -/
def uses (shaders : List Compiled) : List BindingTable.Use :=
  BindingTable.uses (shaders.filterMap Compiled.resources)

theorem check_of_build (h : (build name shaders m device).Returns pipeline) :
    CrossStage.check name (shaders.filterMap Compiled.resources) = .ok () := by
  obtain ⟨_, hcheck, -⟩ := h.bind_inv
  exact Noted.returns_ofError_iff.1 hcheck

theorem build_returns (h : (build name shaders m device).Returns pipeline) :
    List.Forall₂ (fun c s => (remapShader m c).Returns s) shaders pipeline.stages ∧
      BindingTable.build m.mapping device (pipeline.stages.filterMap PipelineStage.resources) =
        .ok pipeline.table := by
  obtain ⟨_, -, h⟩ := h.bind_inv
  obtain ⟨stages, hstages, h⟩ := h.bind_inv
  obtain ⟨table, htable, h⟩ := h.bind_inv
  cases Noted.returns_pure_iff.1 h
  exact ⟨Noted.returns_mapM hstages, Noted.returns_ofError_iff.1 htable⟩

/-- A stage that was patched has the list that its shader's list was planned to. -/
theorem plan_of_remapShader {c : Compiled} {s : PipelineStage}
    (hmode : m.options.mode = .patch) (h : (remapShader m c).Returns s) :
    ∃ l moved, c.resources = some l ∧ s.resources = some moved ∧
      m.plan l = .ok (moved, s.plan) := by
  unfold remapShader at h
  split at h
  next l hl =>
    obtain ⟨stage, hstage, h⟩ := h.bind_inv
    cases Noted.returns_pure_iff.1 h
    exact ⟨l, stage.resources, hl, rfl, (Remapper.remapStage_returns hmode hstage).1⟩
  next =>
    split at h
    next hverify =>
      rw [hmode] at hverify
      cases hverify
    · exact (Noted.not_returns_fail h).elim
    · exact (Noted.not_returns_fail h).elim

/-- A stage has a list exactly if its shader has one, and the resources of that. -/
theorem relocated_of_remapShader {c : Compiled} {s : PipelineStage}
    (h : (remapShader m c).Returns s) :
    Option.Rel ResourceList.Relocated c.resources s.resources := by
  unfold remapShader at h
  split at h
  next l hl =>
    obtain ⟨stage, hstage, h⟩ := h.bind_inv
    cases Noted.returns_pure_iff.1 h
    rw [hl]
    exact .some (Remapper.relocated_of_remapStage hstage)
  next hl =>
    rw [hl]
    split at h
    · cases Noted.returns_pure_iff.1 h
      exact .none
    · exact (Noted.not_returns_fail h).elim
    · exact (Noted.not_returns_fail h).elim

theorem relocated_of_build {stages : List PipelineStage}
    (h : List.Forall₂ (fun c s => (remapShader m c).Returns s) shaders stages) :
    List.Forall₂ ResourceList.Relocated (shaders.filterMap Compiled.resources)
      (stages.filterMap PipelineStage.resources) := by
  refine List.rel_filterMap (R := fun c s => (remapShader m c).Returns s) ?_ h
  exact fun _ _ => relocated_of_remapShader

end RemappedPipeline

/-! ## What the table finds -/

namespace BindingTable

/-- The same resource of the same list, at another place. -/
def Use.Relocated (u u' : Use) : Prop :=
  u.1.Relocated u'.1 ∧ u.2.Relocated u'.2

/-- The table finds a resource as it would at any other place. -/
theorem Use.Relocated.resolve_eq {u u' : Use} (h : u.Relocated u') (mapping : Mapping) :
    u'.resolve mapping = u.resolve mapping := by
  obtain ⟨l', r'⟩ := u'
  obtain ⟨hl, place, elements, rfl⟩ := h
  change mapping.resolve l'.shader u.2.name u.2.altName l'.arraySuffix =
    mapping.resolve u.1.shader u.2.name u.2.altName u.1.arraySuffix
  rw [hl.shader_eq, ← Mapping.resolve_usable, hl.suffix_eq, Mapping.resolve_usable]

theorem Use.Relocated.foundAs_iff {u u' : Use} (h : u.Relocated u') {mapping : Mapping}
    {key : String} : u'.FoundAs mapping key ↔ u.FoundAs mapping key := by
  rw [Use.FoundAs, Use.FoundAs, h.resolve_eq]

theorem Use.Relocated.admitted_iff {u u' : Use} (h : u.Relocated u') {mapping : Mapping} :
    u'.Admitted mapping ↔ u.Admitted mapping := by
  rw [Use.Admitted, Use.Admitted, h.resolve_eq, h.1.stage_eq]

section

variable {ls ls' : List ResourceList} (h : List.Forall₂ ResourceList.Relocated ls ls')
  {mapping : Mapping}

include h

theorem exists_relocated_after {u : Use} (hu : u ∈ uses ls) : ∃ u' ∈ uses ls', u.Relocated u' := by
  obtain ⟨l, r⟩ := u
  obtain ⟨hl, hr⟩ := mem_uses.1 hu
  obtain ⟨l', hl', hmoved⟩ := Remapper.exists_of_forall₂ h.flip hl
  obtain ⟨r', hr', hrelocated⟩ := hmoved.exists_after r hr
  exact ⟨(l', r'), mem_uses.2 ⟨hl', hr'⟩, hmoved, hrelocated⟩

theorem exists_relocated_before {u' : Use} (hu' : u' ∈ uses ls') :
    ∃ u ∈ uses ls, u.Relocated u' := by
  obtain ⟨l', r'⟩ := u'
  obtain ⟨hl', hr'⟩ := mem_uses.1 hu'
  obtain ⟨l, hl, hmoved⟩ := Remapper.exists_of_forall₂ h hl'
  obtain ⟨r, hr, hrelocated⟩ := hmoved.exists_before r' hr'
  exact ⟨(l, r), mem_uses.2 ⟨hl, hr⟩, hmoved, hrelocated⟩

/-- The resources are admitted at their new places exactly if they are at their old ones. -/
theorem forall_admitted_iff :
    (∀ u ∈ uses ls', u.Admitted mapping) ↔ ∀ u ∈ uses ls, u.Admitted mapping := by
  constructor
  · intro hall u hu
    obtain ⟨u', hu', hrelocated⟩ := exists_relocated_after h hu
    exact hrelocated.admitted_iff.1 (hall u' hu')
  · intro hall u' hu'
    obtain ⟨u, hu, hrelocated⟩ := exists_relocated_before h hu'
    exact hrelocated.admitted_iff.2 (hall u hu)

/-- The names that resources are found under are the same at their new places. -/
theorem exists_foundAs_iff {key : String} :
    (∃ u' ∈ uses ls', u'.FoundAs mapping key) ↔ ∃ u ∈ uses ls, u.FoundAs mapping key := by
  constructor
  · rintro ⟨u', hu', hfound⟩
    obtain ⟨u, hu, hrelocated⟩ := exists_relocated_before h hu'
    exact ⟨u, hu, hrelocated.foundAs_iff.1 hfound⟩
  · rintro ⟨u, hu, hfound⟩
    obtain ⟨u', hu', hrelocated⟩ := exists_relocated_after h hu
    exact ⟨u', hu', hrelocated.foundAs_iff.2 hfound⟩

end

end BindingTable

end ShaderBind
