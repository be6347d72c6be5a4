import ShaderBind.Proofs.Layout.Lookup
import ShaderBind.Proofs.Remap.Plan
import ShaderBind.Proofs.Remap.Stage
import ShaderBind.Proofs.Spirv.Patching
import ShaderBind.Proofs.Wgsl.MoveBindings
import Mathlib.Data.List.Nodup

/-!
# Remapping moves everything it plans

A stage that was remapped binds its resources where its plan says, in its list and in its artifact
(`remapStage_complete`). The moves of a plan act at once, on the places as they were: since no two
declarations of a list share a place, each planned source goes to its own target
(`apply_moves_source`), and a place that the plan does not name stays (`apply_moves_other`). So what
is read back from the artifact is what was read before, place by place moved (`Artifact.Moved`).
-/

namespace ShaderBind

/-! ## The moves of a plan -/

theorem Moves.target?_eq_none_iff {moves : Moves} {c : Coord} :
    moves.target? c = none ↔ ∀ x ∈ moves, x.1 ≠ c := by
  simp [Moves.target?]

theorem Moves.target?_of_mem {moves : Moves} (hnodup : (moves.map Prod.fst).Nodup) {a b : Coord}
    (h : (a, b) ∈ moves) : moves.target? a = some b := by
  cases htarget : moves.target? a with
  | none => exact absurd rfl (Moves.target?_eq_none_iff.1 htarget _ h)
  | some c =>
    obtain ⟨x, hfind, rfl⟩ := Option.map_eq_some_iff.1 htarget
    have hmem : x ∈ moves := List.mem_reverse.1 (List.mem_of_find?_eq_some hfind)
    have hfst : x.1 = a := by simpa using List.find?_some hfind
    rw [List.inj_on_of_nodup_map hnodup hmem h hfst]

namespace PlannedBinding

variable {plan : List PlannedBinding}

theorem apply_moves_other {c : Coord} (h : ∀ p ∈ plan, p.source ≠ c) :
    (moves plan).apply c = c := by
  have : (moves plan).target? c = none := by
    refine Moves.target?_eq_none_iff.2 fun x hx => ?_
    obtain ⟨p, hp, rfl⟩ := List.mem_map.1 hx
    exact h p (List.mem_of_mem_filter hp)
  rw [Moves.apply, this, Option.getD_none]

/-- A planned binding is moved to its target, if no other one begins at its source. -/
theorem apply_moves_source (hnodup : (plan.map source).Nodup) {p : PlannedBinding} (hp : p ∈ plan) :
    (moves plan).apply p.source = p.target := by
  by_cases hmoves : p.source = p.target
  · have hnone : (moves plan).target? p.source = none := by
      refine Moves.target?_eq_none_iff.2 fun x hx hsource => ?_
      obtain ⟨q, hq, rfl⟩ := List.mem_map.1 hx
      have hq' := List.mem_filter.1 hq
      have : q = p := List.inj_on_of_nodup_map hnodup hq'.1 hp hsource
      simp [this, hmoves] at hq'
    rw [Moves.apply, hnone, Option.getD_none, hmoves]
  · have hsome : (moves plan).target? p.source = some p.target := by
      refine Moves.target?_of_mem ?_ (List.mem_map.2 ⟨p, by simp [hp, hmoves], rfl⟩)
      rw [moves, List.map_map]
      exact hnodup.sublist ((List.filter_sublist (l := plan)).map source)
    rw [Moves.apply, hsome, Option.getD_some]

end PlannedBinding

/-! ## Artifacts -/

namespace Artifact

/-- The artifact binds something at a place. -/
def Binds (c : Coord) : Artifact → Prop
  | .wgsl text => c ∈ Wgsl.findBindings text
  | .spirv words => ∃ bs id, Spirv.readBindings words = .ok bs ∧ (id, c) ∈ bs
  | .glsl _ => False

/-- Reading the second artifact gives what reading the first one gives, with each place moved: in
the order of a text, and by the ids of a module. -/
inductive Moved (f : Coord → Coord) : Artifact → Artifact → Prop
  | wgsl {text text' : String}
      (h : Wgsl.findBindings text' = (Wgsl.findBindings text).map f) :
      Moved f (.wgsl text) (.wgsl text')
  | spirv {words words' : List UInt32} {bs : List (UInt32 × Coord)}
      (h : Spirv.readBindings words = .ok bs)
      (h' : Spirv.readBindings words' = .ok (bs.map fun b => (b.1, f b.2))) :
      Moved f (.spirv words) (.spirv words')

theorem Moved.binds {f : Coord → Coord} {a a' : Artifact} (h : Moved f a a') {c : Coord}
    (hc : a.Binds c) : a'.Binds (f c) := by
  cases h with
  | wgsl h =>
    rw [Binds, h]
    exact List.mem_map_of_mem hc
  | spirv h h' =>
    obtain ⟨bs, id, hread, hmem⟩ := hc
    cases hread.symm.trans h
    exact ⟨_, id, h', List.mem_map.2 ⟨(id, c), hmem, rfl⟩⟩

end Artifact

namespace Remapper

theorem moved_of_patch {shader : String} {moves : Moves} {a a' : Artifact} {found : List Coord}
    (h : patch shader moves a = .ok (a', found)) : a.Moved moves.apply a' := by
  cases a with
  | wgsl text =>
    cases h
    exact .wgsl (Wgsl.findBindings_moveBindings text moves)
  | spirv words =>
    simp only [patch] at h
    split at h
    next words' _ hpatch =>
      cases h
      obtain ⟨bs, hread, hread', -⟩ := Spirv.readBindings_patch hpatch
      exact .spirv hread hread'
    next => cases h
  | glsl text => cases h

theorem remapStage_returns {m : Remapper} {artifact : Artifact} {l : ResourceList}
    {stage : RemappedStage} (hmode : m.options.mode = .patch)
    (h : (m.remapStage artifact l).Returns stage) :
    m.plan l = .ok (stage.resources, stage.plan) ∧
      ∃ found, patch l.shader (PlannedBinding.moves stage.plan) artifact =
        .ok (stage.artifact, found) := by
  obtain ⟨hplan, found, hpatch, -⟩ := (remapStage_patch_iff hmode).1 h
  exact ⟨hplan, found, hpatch⟩

/-- Remapping is complete. The old list has the planned declarations at their sources and the new
one at their targets; each target is counted from the entry that the resource resolves to; the
artifact is the old one with every planned source at its target and all other places as they were;
and so every declaration that the artifact held before is held where the new list says. -/
theorem remapStage_complete {m : Remapper} {artifact : Artifact} {l : ResourceList}
    {stage : RemappedStage} (hmode : m.options.mode = .patch) (hl : l.Reachable)
    (h : (m.remapStage artifact l).outcome.1 = .ok stage) :
    (l.declarations = stage.plan.map PlannedBinding.before ∧
        stage.resources.declarations = stage.plan.map PlannedBinding.after) ∧
      (∀ p ∈ stage.plan, ∃ r ∈ l.resources, ∃ resolved,
        m.mapping.resolve l.shader r.name r.altName (m.suffixFor l) = .ok resolved ∧
          ∃ s ∈ r.slots, PlannedFor resolved s p) ∧
      (∃ f : Coord → Coord, (∀ p ∈ stage.plan, f p.source = p.target) ∧
        (∀ c, (∀ p ∈ stage.plan, p.source ≠ c) → f c = c) ∧
        artifact.Moved f stage.artifact) ∧
      ((∀ d ∈ l.declarations, artifact.Binds d.place) →
        ∀ d ∈ stage.resources.declarations, stage.artifact.Binds d.place) := by
  obtain ⟨hplan, found, hpatch⟩ := remapStage_returns hmode (Noted.returns_of_outcome h)
  have hplanned := plan_eq_ok hplan hl.wellformed
  have hnodup : (stage.plan.map PlannedBinding.source).Nodup := by
    have := hl.wellformed.nodup
    rwa [hplanned.before_eq, List.map_map] at this
  have hsource : ∀ p ∈ stage.plan, (PlannedBinding.moves stage.plan).apply p.source = p.target :=
    fun p => PlannedBinding.apply_moves_source hnodup
  have hmoved := moved_of_patch hpatch
  refine ⟨⟨hplanned.before_eq, hplanned.after_eq⟩, fun p hp => ?_,
    ⟨_, hsource, fun c => PlannedBinding.apply_moves_other, hmoved⟩, fun hbinds d hd => ?_⟩
  · obtain ⟨r, hr, _, _, _, resolved, hresource, hslots⟩ := hplanned.slots p hp
    exact ⟨r, hr, resolved, hresource.resolve_eq, hslots⟩
  · rw [hplanned.after_eq] at hd
    obtain ⟨p, hp, rfl⟩ := List.mem_map.1 hd
    have hbefore : artifact.Binds p.source :=
      hbinds p.before (by rw [hplanned.before_eq]; exact List.mem_map_of_mem hp)
    rw [PlannedBinding.after, ← hsource p hp]
    exact hmoved.binds hbefore

/-- A texture that is declared by itself. -/
def single (name : String) (place : Coord) : Resource :=
  { name, category := .sampledTexture, dimension := .tex2D, sampleType := .float, place }

/-- An array declared in two elements, each bound where the other belongs. -/
def crossed : ResourceList where
  shader := "s"
  stage := .pixel
  language := .wgsl
  resources :=
    [{ single "t" ⟨0, 1⟩ with
       arraySize := 2, elements := [⟨"t_0", 0, ⟨0, 1⟩⟩, ⟨"t_1", 1, ⟨0, 0⟩⟩] }]
  arraySuffix := some "_"

theorem crossed_reachable : crossed.Reachable := by
  have hbuild : ResourceList.build "s" .pixel .wgsl [single "t_1" ⟨0, 0⟩, single "t_0" ⟨0, 1⟩] =
      .ok { shader := "s", stage := .pixel, language := .wgsl,
            resources := [single "t_1" ⟨0, 0⟩, single "t_0" ⟨0, 1⟩] } :=
    ResourceList.build_of_sorted rfl (by decide)
  refine .merge "_" (.build (by simp [single]) hbuild) ?_
  have hsecond : (single "t_1" ⟨0, 0⟩).elementName? "_" = some ⟨"t", 1⟩ := by decide +kernel
  have hfirst : (single "t_0" ⟨0, 1⟩).elementName? "_" = some ⟨"t", 0⟩ := by decide +kernel
  have hparts : [single "t_1" ⟨0, 0⟩, single "t_0" ⟨0, 1⟩].foldlM (Merge.step "s" .pixel "_") [] =
      .ok (crossed.resources.map .array) := by
    simp only [List.foldlM_cons, Merge.step, hsecond, hfirst]
    rfl
  exact ResourceList.merge_of_parts rfl hparts rfl (by decide)

/-- A layout with one array of two elements. -/
def pairLayout : Remapper where
  mapping := .ofEntries [("t", { group := 0, binding := 0, arraySize := 2 })]

/-- A module that binds variable 5 at binding `a` and variable 6 at binding `b`, both of set 0. -/
def pairWords (a b : UInt32) : List UInt32 :=
  [0x07230203, 0, 0, 9, 0, 0x00040047, 5, 34, 0, 0x00040047, 5, 33, a,
    0x00040047, 6, 34, 0, 0x00040047, 6, 33, b]

/-- A text that binds `t_0` at binding `a` and `t_1` at binding `b`, both of group 0. -/
def pairText (a b : String) : String :=
  "@group(0) @binding(" ++ a ++ ") var t_0: texture_2d<f32>;\n" ++
    "@binding(" ++ b ++ ") @group(0) var t_1: texture_2d<f32>; // @group(0) @binding(1)"

theorem forall_declarations_crossed {p : Declaration → Prop} (hfirst : p ⟨"t_0", ⟨0, 1⟩⟩)
    (hsecond : p ⟨"t_1", ⟨0, 0⟩⟩) : ∀ d ∈ crossed.declarations, p d := by
  have hdeclared : crossed.declarations = [⟨"t_0", ⟨0, 1⟩⟩, ⟨"t_1", ⟨0, 0⟩⟩] := rfl
  rw [hdeclared]
  exact List.forall_mem_cons.2 ⟨hfirst, List.forall_mem_singleton.2 hsecond⟩

/-- What the crossed list is remapped to, in a module. -/
theorem remapStage_pairWords :
    ∃ stage, (pairLayout.remapStage (.spirv (pairWords 1 0)) crossed).outcome.1 = .ok stage ∧
      stage.artifact = .spirv (pairWords 0 1) := by
  have hartifact : (pairLayout.remapStage (.spirv (pairWords 1 0))
      crossed).outcome.1.toOption.map RemappedStage.artifact = some (.spirv (pairWords 0 1)) := by
    decide +kernel
  exact exists_ok_of_map_toOption hartifact

/-- What the crossed list is remapped to, in a text. -/
theorem remapStage_pairText :
    ∃ stage, (pairLayout.remapStage (.wgsl (pairText "1" "0")) crossed).outcome.1 = .ok stage ∧
      stage.artifact = .wgsl (pairText "0" "1") := by
  have hartifact : (pairLayout.remapStage (.wgsl (pairText "1" "0"))
      crossed).outcome.1.toOption.map RemappedStage.artifact =
        some (.wgsl (pairText "0" "1")) := by
    decide +kernel
  exact exists_ok_of_map_toOption hartifact

/-- A module and a text that bind the elements crosswise: each element gets to its place. -/
theorem remapStage_complete_crossed :
    (∃ stage, (pairLayout.remapStage (.spirv (pairWords 1 0)) crossed).outcome.1 = .ok stage ∧
      stage.artifact = .spirv (pairWords 0 1) ∧
      ∀ d ∈ stage.resources.declarations, stage.artifact.Binds d.place) ∧
    ∃ stage, (pairLayout.remapStage (.wgsl (pairText "1" "0")) crossed).outcome.1 = .ok stage ∧
      stage.artifact = .wgsl (pairText "0" "1") ∧
      ∀ d ∈ stage.resources.declarations, stage.artifact.Binds d.place := by
  constructor
  · obtain ⟨stage, h, hstage⟩ := remapStage_pairWords
    have hread : Spirv.readBindings (pairWords 1 0) = .ok [(5, ⟨0, 1⟩), (6, ⟨0, 0⟩)] := by
      decide +kernel
    refine ⟨stage, h, hstage, (remapStage_complete rfl crossed_reachable h).2.2.2 ?_⟩
    exact forall_declarations_crossed ⟨_, 5, hread, by simp⟩ ⟨_, 6, hread, by simp⟩
  · obtain ⟨stage, h, hstage⟩ := remapStage_pairText
    have hfind : Wgsl.findBindings (pairText "1" "0") = [⟨0, 1⟩, ⟨0, 0⟩] := by decide +kernel
    refine ⟨stage, h, hstage, (remapStage_complete rfl crossed_reachable h).2.2.2 ?_⟩
    apply forall_declarations_crossed <;> simp [Artifact.Binds, hfind]

end Remapper

end ShaderBind
