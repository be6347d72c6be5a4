import ShaderBind.Proofs.Outcome
import ShaderBind.Remap.Stage

/-!
# How the remapping of a stage ends

Patching ends well exactly if there is a plan, the artifact can be patched, and no declaration that
moves is missing from it (`remapStage_patch_iff`). Looking at the bindings, where a mismatch is an
error, ends well exactly if there is a plan in which nothing moves (`remapStage_verify_iff`). In
both cases nothing is noted on the way.
-/

namespace ShaderBind.Remapper

variable {m : Remapper} {artifact : Artifact} {l : ResourceList} {stage : RemappedStage}

/-! ## Patching -/

theorem remapStage_yields (hmode : m.options.mode = .patch) {found : List Coord}
    (hplan : m.plan l = .ok (stage.resources, stage.plan))
    (hpatch : patch l.shader (PlannedBinding.moves stage.plan) artifact =
      .ok (stage.artifact, found))
    (hmissing : missing? stage.plan found = none) : (m.remapStage artifact l).Yields stage := by
  refine (Noted.yields_ofStop hplan).bind ?_
  simp only [hmode]
  refine (Noted.yields_ofError hpatch).bind ?_
  simp only [hmissing]
  exact Noted.yields_pure stage

theorem remapStage_patch_iff (hmode : m.options.mode = .patch) :
    (m.remapStage artifact l).Returns stage ↔
      m.plan l = .ok (stage.resources, stage.plan) ∧
        ∃ found, patch l.shader (PlannedBinding.moves stage.plan) artifact =
          .ok (stage.artifact, found) ∧ missing? stage.plan found = none := by
  constructor
  · intro h
    obtain ⟨⟨moved, plan⟩, hplan, h⟩ := h.bind_inv
    simp only [hmode] at h
    obtain ⟨⟨patched, found⟩, hpatch, h⟩ := h.bind_inv
    split at h
    · exact (Noted.not_returns_fail h).elim
    next hmissing =>
      cases Noted.returns_pure_iff.1 h
      exact ⟨Noted.returns_ofStop_iff.1 hplan, found, Noted.returns_ofError_iff.1 hpatch, hmissing⟩
  · rintro ⟨hplan, found, hpatch, hmissing⟩
    exact (remapStage_yields hmode hplan hpatch hmissing).returns

theorem yields_of_remapStage (hmode : m.options.mode = .patch)
    (h : (m.remapStage artifact l).Returns stage) : (m.remapStage artifact l).Yields stage := by
  obtain ⟨hplan, found, hpatch, hmissing⟩ := (remapStage_patch_iff hmode).1 h
  exact remapStage_yields hmode hplan hpatch hmissing

/-! ## Looking -/

theorem check_yields {shader resource : String} {expected actual : Coord} (h : expected = actual) :
    (m.check shader resource expected actual).Yields true := by
  rw [check, if_pos h]
  exact Noted.yields_pure true

theorem eq_of_check_returns {shader resource : String} {expected actual : Coord} {agrees : Bool}
    (hseverity : m.options.severity = .error)
    (h : (m.check shader resource expected actual).Returns agrees) : expected = actual := by
  unfold check at h
  split at h
  · assumption
  · simp only [hseverity] at h
    exact (Noted.not_returns_fail h).elim

/-- The checks of a plan, one by one. -/
theorem checks_yield {shader : String} {plan : List PlannedBinding}
    (h : ∀ p ∈ plan, p.source = p.target) :
    (forIn plan PUnit.unit fun p _ => do
      let _ ← m.check shader p.name p.target p.source
      return ForInStep.yield PUnit.unit : Noted PUnit).Yields PUnit.unit := by
  induction plan with
  | nil => exact Noted.yields_pure _
  | cons p plan ih =>
    obtain ⟨hp, hplan⟩ := List.forall_mem_cons.1 h
    rw [List.forIn_cons]
    refine Noted.Yields.bind (a := ForInStep.yield PUnit.unit) ?_ (ih hplan)
    exact (check_yields hp.symm).bind (Noted.yields_pure _)

theorem eq_of_checks_return {shader : String} {plan : List PlannedBinding}
    (hseverity : m.options.severity = .error) {u : PUnit}
    (h : (forIn plan PUnit.unit fun p _ => do
      let _ ← m.check shader p.name p.target p.source
      return ForInStep.yield PUnit.unit : Noted PUnit).Returns u) :
    ∀ p ∈ plan, p.source = p.target := by
  induction plan with
  | nil => simp
  | cons p plan ih =>
    rw [List.forIn_cons] at h
    obtain ⟨_, hstep, h⟩ := h.bind_inv
    obtain ⟨_, hcheck, hstep⟩ := hstep.bind_inv
    cases Noted.returns_pure_iff.1 hstep
    exact List.forall_mem_cons.2 ⟨(eq_of_check_returns hseverity hcheck).symm, ih h⟩

theorem remapStage_verify_yields (hmode : m.options.mode = .verifyOnly) {moved : ResourceList}
    {plan : List PlannedBinding} (hplan : m.plan l = .ok (moved, plan))
    (hstays : ∀ p ∈ plan, p.source = p.target) :
    (m.remapStage artifact l).Yields ⟨artifact, l, plan⟩ := by
  refine (Noted.yields_ofStop hplan).bind ?_
  simp only [hmode]
  exact (checks_yield hstays).bind (Noted.yields_pure _)

theorem remapStage_verify_iff (hmode : m.options.mode = .verifyOnly)
    (hseverity : m.options.severity = .error) :
    (m.remapStage artifact l).Returns stage ↔
      ∃ moved plan, m.plan l = .ok (moved, plan) ∧ (∀ p ∈ plan, p.source = p.target) ∧
        stage = ⟨artifact, l, plan⟩ := by
  constructor
  · intro h
    obtain ⟨⟨moved, plan⟩, hplan, h⟩ := h.bind_inv
    simp only [hmode] at h
    obtain ⟨_, hchecks, h⟩ := h.bind_inv
    exact ⟨moved, plan, Noted.returns_ofStop_iff.1 hplan, eq_of_checks_return hseverity hchecks,
      (Noted.returns_pure_iff.1 h).symm⟩
  · rintro ⟨moved, plan, hplan, hstays, rfl⟩
    exact (remapStage_verify_yields hmode hplan hstays).returns

end ShaderBind.Remapper
