import ShaderBind.Proofs.Layout.Lookup
import ShaderBind.Proofs.Remap.Completeness

/-!
# Remapping twice

What a resource resolves to depends on its names, its size and the suffix, and a plan keeps all of
them. So a list that a plan made is planned to itself, every declaration at the place it has
(`plan_again`), and remapping a stage a second time changes neither the artifact nor the list; a
remapper that only looks accepts both (`remapStage_fixpoint`).
-/

namespace ShaderBind

/-- The plan of a declaration that stays where it is. -/
def Declaration.stay (d : Declaration) : PlannedBinding :=
  ⟨d.name, d.place, d.place⟩

theorem PlannedBinding.moves_stay (ds : List Declaration) :
    moves (ds.map Declaration.stay) = [] := by
  rw [moves, List.map_eq_nil_iff, List.filter_eq_nil_iff]
  intro p hp
  obtain ⟨d, -, rfl⟩ := List.mem_map.1 hp
  simp [Declaration.stay]

namespace Remapper

/-! ## Plans -/

theorem moveElements_again {base : Coord} {es es' : List Element}
    (h : moveElements base es = .ok es') : moveElements base es' = .ok es' := by
  induction es generalizing es' with
  | nil =>
    cases h
    rfl
  | cons e es ih =>
    obtain ⟨binding, hbinding, h⟩ := bind_eq_ok_iff.1 h
    obtain ⟨rest, hrest, h⟩ := bind_eq_ok_iff.1 h
    cases h
    exact bind_eq_ok_iff.2 ⟨binding, hbinding, bind_eq_ok_iff.2 ⟨rest, ih hrest, rfl⟩⟩

theorem moveResource_again {base : Coord} {r r' : Resource} (h : moveResource base r = .ok r') :
    moveResource base r' = .ok r' := by
  have helements := (moveResource_eq_ok h).elements
  unfold moveResource at h ⊢
  split at h
  next hempty =>
    cases h
    rw [if_pos hempty]
  next hne =>
    obtain ⟨es, hes, h⟩ := bind_eq_ok_iff.1 h
    cases h
    have hne' : ¬ es.isEmpty := by
      rwa [List.isEmpty_iff_length_eq_zero, ← helements.length_eq,
        ← List.isEmpty_iff_length_eq_zero]
    rw [if_neg hne']
    exact bind_eq_ok_iff.2 ⟨es, moveElements_again hes, rfl⟩

theorem planned_self (r : Resource) : planned r r = r.declarations.map Declaration.stay :=
  List.zipWith_self

variable {m : Remapper} {l moved : ResourceList} {plan : List PlannedBinding}

/-- A list whose suffix was checked for use resolves names as the list before. -/
theorem resolve_suffixFor (hsuffix : moved.arraySuffix = ResourceList.usable l.arraySuffix)
    (shader name : String) (altName : Option String) :
    m.mapping.resolve shader name altName (m.suffixFor moved) =
      m.mapping.resolve shader name altName (m.suffixFor l) := by
  unfold suffixFor
  cases m.options.arraySuffix with
  | some s => rfl
  | none => rw [Option.none_or, Option.none_or, hsuffix, Mapping.resolve_usable]

theorem planResource_again {r : Resource} {out : Resource × List PlannedBinding}
    (hshader : moved.shader = l.shader)
    (hsuffix : moved.arraySuffix = ResourceList.usable l.arraySuffix)
    (h : m.planResource l r = .ok out) :
    m.planResource moved out.1 = .ok (out.1, out.1.declarations.map Declaration.stay) := by
  obtain ⟨resolved, base, hresolve, hplace, hfits, hmove, -⟩ := planResource_eq_ok_iff.1 h
  have hmoved := moveResource_eq_ok hmove
  refine planResource_eq_ok_iff.2
    ⟨resolved, base, ?_, hplace, ?_, moveResource_again hmove, (planned_self out.1).symm⟩
  · rw [hshader, hmoved.name_eq, hmoved.altName_eq, resolve_suffixFor hsuffix, hresolve]
  · rw [hmoved.arraySize_eq]
    exact hfits

/-- A list that a plan made is planned to itself. -/
theorem plan_again (h : m.plan l = .ok (moved, plan)) :
    m.plan moved = .ok (moved, moved.declarations.map Declaration.stay) := by
  obtain ⟨out, built, hout, hbuild, rfl, -⟩ := plan_eq_ok_iff.1 h
  have hbuild' := ResourceList.build_again hbuild
  obtain ⟨rfl, -⟩ := ResourceList.build_eq_ok hbuild
  -- every resource of the new list is a planned one
  have hplanned : ∀ r ∈ ResourceList.arrange (out.map Prod.fst),
      ∃ r₀ ps, m.planResource l r₀ = .ok (r, ps) := by
    intro r hr
    rw [ResourceList.arrange, List.mem_mergeSort] at hr
    obtain ⟨q, hq, rfl⟩ := List.mem_map.1 hr
    obtain ⟨r₀, -, hr₀⟩ := exists_of_forall₂ (planAll_eq_ok_iff.1 hout) hq
    exact ⟨r₀, q.2, hr₀⟩
  refine plan_eq_ok_iff.2 ⟨(ResourceList.arrange (out.map Prod.fst)).map fun r =>
    (r, r.declarations.map Declaration.stay),
    { shader := l.shader, stage := l.stage, language := l.language,
      resources := ResourceList.arrange (out.map Prod.fst) },
    planAll_eq_ok_iff.2 ?_, ?_, ?_, ?_⟩
  · refine List.forall₂_map_right_iff.2 (List.forall₂_same.2 fun r hr => ?_)
    obtain ⟨r₀, ps, hr₀⟩ := hplanned r hr
    refine planResource_again ?_ ?_ hr₀
    · rfl
    · rfl
  · rw [List.map_map]
    exact (congrArg _ (List.map_id _)).trans hbuild'
  · simp only [ResourceList.withCombinedSamplerSuffix, ResourceList.withArraySuffix,
      ResourceList.usable_usable]
  · rw [List.flatMap_map, ResourceList.declarations, List.map_flatMap]
    rfl

/-! ## Stages -/

theorem missing?_stay (ds : List Declaration) (found : List Coord) :
    missing? (ds.map Declaration.stay) found = none := by
  rw [missing?, List.find?_eq_none]
  intro p hp
  obtain ⟨d, -, rfl⟩ := List.mem_map.1 hp
  simp [Declaration.stay]

/-- An artifact that was patched can be patched again, and without moves it stays. -/
theorem patch_nil_of_patch {shader : String} {moves : Moves} {a a' : Artifact}
    {found : List Coord} (h : patch shader moves a = .ok (a', found)) (shader' : String) :
    ∃ found', patch shader' [] a' = .ok (a', found') := by
  cases a with
  | wgsl text =>
    cases h
    have hstays : ∀ text', patch shader' [] (.wgsl text') =
        .ok (.wgsl text', (Wgsl.moveBindings text' []).2) := by
      intro text'
      simp only [patch, Wgsl.moveBindings_nil]
    exact ⟨_, hstays _⟩
  | spirv words =>
    simp only [patch] at h
    split at h
    next words' _ hpatch =>
      cases h
      obtain ⟨ds, -, hcollect, -⟩ := Spirv.patch_eq_ok hpatch
      exact ⟨[], by simp only [patch, Spirv.patch_nil hcollect]⟩
    next => cases h
  | glsl text => cases h

/-- The remapper with the same layout that only looks, and takes a mismatch for an error. -/
def verifier (m : Remapper) : Remapper where
  mapping := m.mapping
  options := { mode := .verifyOnly, severity := .error, arraySuffix := m.options.arraySuffix }

theorem plan_verifier (m : Remapper) (l : ResourceList) : m.verifier.plan l = m.plan l := by
  have hall : ∀ rs, m.verifier.planAll l rs = m.planAll l rs := by
    intro rs
    induction rs with
    | nil => rfl
    | cons r rs ih =>
      rw [planAll, planAll, ih]
      rfl
  rw [plan, plan, hall]

/-- Remapping reaches a fixpoint. A second run on what a first one left changes neither artifact nor
list, and its plan leaves every declaration where it is; a remapper that only looks accepts it, too.
In general a remapper that looks accepts exactly the lists whose plan moves nothing. -/
theorem remapStage_fixpoint {m : Remapper} {artifact : Artifact} {l : ResourceList}
    {stage : RemappedStage} (hmode : m.options.mode = .patch)
    (h : (m.remapStage artifact l).outcome.1 = .ok stage) :
    (∃ plan, (m.remapStage stage.artifact stage.resources).outcome =
        (.ok ⟨stage.artifact, stage.resources, plan⟩, []) ∧
      (m.verifier.remapStage stage.artifact stage.resources).outcome =
        (.ok ⟨stage.artifact, stage.resources, plan⟩, []) ∧
      plan.map PlannedBinding.before = stage.resources.declarations ∧
      ∀ p ∈ plan, p.source = p.target) ∧
    ∀ (look : Remapper) (a : Artifact) (l' : ResourceList), look.options.mode = .verifyOnly →
      look.options.severity = .error →
      ((∃ verified, (look.remapStage a l').outcome.1 = .ok verified) ↔
        ∃ moved plan, look.plan l' = .ok (moved, plan) ∧ ∀ p ∈ plan, p.source = p.target) := by
  obtain ⟨hplan, found, hpatch, -⟩ :=
    (remapStage_patch_iff hmode).1 (Noted.returns_of_outcome h)
  have hagain := plan_again hplan
  have hstays : ∀ p ∈ stage.resources.declarations.map Declaration.stay, p.source = p.target := by
    intro p hp
    obtain ⟨d, -, rfl⟩ := List.mem_map.1 hp
    rfl
  refine ⟨⟨stage.resources.declarations.map Declaration.stay, ?_, ?_, ?_, hstays⟩, ?_⟩
  · obtain ⟨found', hpatch'⟩ := patch_nil_of_patch hpatch stage.resources.shader
    refine (remapStage_yields hmode hagain ?_ (missing?_stay _ found')).outcome_eq
    rw [PlannedBinding.moves_stay]
    exact hpatch'
  · rw [← plan_verifier] at hagain
    exact (remapStage_verify_yields rfl hagain hstays).outcome_eq
  · rw [List.map_map]
    exact List.map_id _
  · intro look a l' hlook hseverity
    constructor
    · rintro ⟨verified, hverified⟩
      obtain ⟨moved, plan, hplan, hstays, -⟩ :=
        (remapStage_verify_iff hlook hseverity).1 (Noted.returns_of_outcome hverified)
      exact ⟨moved, plan, hplan, hstays⟩
    · rintro ⟨moved, plan, hplan, hstays⟩
      exact ⟨_, congrArg Prod.fst (remapStage_verify_yields hlook hplan hstays).outcome_eq⟩

/-- A module and a text that bind the elements crosswise, remapped twice. -/
theorem remapStage_fixpoint_crossed :
    (∃ stage, (pairLayout.remapStage (.spirv (pairWords 1 0)) crossed).outcome.1 = .ok stage ∧
      stage.artifact = .spirv (pairWords 0 1) ∧
      ∃ plan, (pairLayout.remapStage (.spirv (pairWords 0 1)) stage.resources).outcome =
          (.ok ⟨.spirv (pairWords 0 1), stage.resources, plan⟩, []) ∧
        (pairLayout.verifier.remapStage (.spirv (pairWords 0 1)) stage.resources).outcome =
          (.ok ⟨.spirv (pairWords 0 1), stage.resources, plan⟩, [])) ∧
    ∃ stage, (pairLayout.remapStage (.wgsl (pairText "1" "0")) crossed).outcome.1 = .ok stage ∧
      stage.artifact = .wgsl (pairText "0" "1") ∧
      ∃ plan, (pairLayout.remapStage (.wgsl (pairText "0" "1")) stage.resources).outcome =
          (.ok ⟨.wgsl (pairText "0" "1"), stage.resources, plan⟩, []) ∧
        (pairLayout.verifier.remapStage (.wgsl (pairText "0" "1")) stage.resources).outcome =
          (.ok ⟨.wgsl (pairText "0" "1"), stage.resources, plan⟩, []) := by
  constructor
  · obtain ⟨stage, h, hstage⟩ := remapStage_pairWords
    obtain ⟨⟨plan, hagain, hlook, -⟩, -⟩ := remapStage_fixpoint rfl h
    rw [hstage] at hagain hlook
    exact ⟨stage, h, hstage, plan, hagain, hlook⟩
  · obtain ⟨stage, h, hstage⟩ := remapStage_pairText
    obtain ⟨⟨plan, hagain, hlook, -⟩, -⟩ := remapStage_fixpoint rfl h
    rw [hstage] at hagain hlook
    exact ⟨stage, h, hstage, plan, hagain, hlook⟩

end Remapper

end ShaderBind
