import ShaderBind.Proofs.Table.Pipeline

/-!
# The remapper's names and the table's

Both the remapper and the binding table look the resources of a stage up in the layout. To take the
name of an array's element apart, the remapper uses its own suffix if it has one, and the list's
otherwise (`Use.remapped`); the table uses the list's (`Use.resolve`). So stages that can all be
remapped make a pipeline exactly if the table finds their resources too, and the table has the names
that the table finds, each once. They are those that the remapper finds where no suffix is needed or
both suffixes say the same (`build_resolution`). Where the remapper alone has a suffix, the pipeline
can fail (`not_build_loose`).
-/

namespace ShaderBind

namespace BindingTable

/-- What the remapper finds a resource as. -/
def Use.remapped (m : Remapper) (u : Use) : Except ShaderError Mapping.Resolved :=
  m.mapping.resolve u.1.shader u.2.name u.2.altName (m.suffixFor u.1)

/-- Nothing hangs on which suffix is taken: the layout has the name as a whole, or the suffixes say
the same. -/
def Use.Unambiguous (m : Remapper) (u : Use) : Prop :=
  (m.mapping.get? u.2.name).isSome = true ∨
    ResourceList.usable (m.suffixFor u.1) = ResourceList.usable u.1.arraySuffix

theorem Use.Unambiguous.remapped_eq {m : Remapper} {u : Use} (h : u.Unambiguous m) :
    u.remapped m = u.resolve m.mapping := by
  rw [Use.remapped, Use.resolve]
  rcases h with hwhole | hsuffix
  · obtain ⟨entry, hentry⟩ := Option.isSome_iff_exists.1 hwhole
    rw [Mapping.resolve_of_get? hentry, Mapping.resolve_of_get? hentry]
  · rw [← Mapping.resolve_usable, hsuffix, Mapping.resolve_usable]

end BindingTable

open BindingTable

/-- A list that was planned has only resources that the remapper finds. -/
theorem Remapper.exists_remapped {m : Remapper} {l moved : ResourceList}
    {plan : List PlannedBinding} (h : m.plan l = .ok (moved, plan)) {r : Resource}
    (hr : r ∈ l.resources) : ∃ resolved, Use.remapped m (l, r) = .ok resolved := by
  obtain ⟨out, _, hout, -⟩ := plan_eq_ok_iff.1 h
  obtain ⟨p, -, hp⟩ := exists_of_forall₂ (planAll_eq_ok_iff.1 hout).flip hr
  obtain ⟨resolved, _, hresolve, -⟩ := planResource_eq_ok_iff.1 hp
  exact ⟨resolved, hresolve⟩

namespace RemappedPipeline

variable {name : String} {shaders : List Compiled} {m : Remapper} {device : Device}

/-- The shader has a list, and can be remapped by it. -/
def Remappable (m : Remapper) (c : Compiled) : Prop :=
  ∃ l stage, c.resources = some l ∧ (m.remapStage c.artifact l).outcome.1 = .ok stage

theorem Remappable.exists_yields {c : Compiled} (h : Remappable m c)
    (hmode : m.options.mode = .patch) : ∃ s, (remapShader m c).Yields s := by
  obtain ⟨l, stage, hl, hstage⟩ := h
  have hyields := Remapper.yields_of_remapStage hmode (Noted.returns_of_outcome hstage)
  refine ⟨⟨c.name, c.stage, c.entryPoint, stage.artifact, some stage.resources, stage.plan⟩, ?_⟩
  unfold remapShader
  rw [hl]
  exact hyields.bind (Noted.yields_pure _)

/-- The remapper finds every resource of shaders that it can remap. -/
theorem exists_remapped (hmode : m.options.mode = .patch)
    (hshaders : ∀ c ∈ shaders, Remappable m c) {u : Use} (hu : u ∈ uses shaders) :
    ∃ resolved, u.remapped m = .ok resolved := by
  obtain ⟨l, r⟩ := u
  obtain ⟨hl, hr⟩ := mem_uses.1 hu
  obtain ⟨c, hc, hcl⟩ := List.mem_filterMap.1 hl
  obtain ⟨l', stage, hl', hstage⟩ := hshaders c hc
  cases hcl.symm.trans hl'
  obtain ⟨hplan, -⟩ := (Remapper.remapStage_patch_iff hmode).1 (Noted.returns_of_outcome hstage)
  exact Remapper.exists_remapped hplan hr

/-- Shaders that agree and can be remapped make a pipeline if the table finds their resources. -/
theorem exists_build (hmode : m.options.mode = .patch)
    (hcheck : CrossStage.check name (shaders.filterMap Compiled.resources) = .ok ())
    (hshaders : ∀ c ∈ shaders, Remappable m c)
    (hadmitted : ∀ u ∈ uses shaders, u.Admitted m.mapping) :
    ∃ pipeline, (build name shaders m device).outcome.1 = .ok pipeline := by
  obtain ⟨stages, hstages⟩ :=
    Noted.exists_yields_mapM fun c hc => (hshaders c hc).exists_yields hmode
  have hlists := relocated_of_build (Noted.returns_mapM hstages.returns)
  obtain ⟨table, htable⟩ : ∃ table, BindingTable.build m.mapping device
      (stages.filterMap PipelineStage.resources) = .ok table :=
    ⟨_, build_eq_ok_iff.2 ⟨(forall_admitted_iff hlists).2 hadmitted, rfl⟩⟩
  have hbuild : (build name shaders m device).Yields { name, stages, table } :=
    (Noted.yields_ofError hcheck).bind
      (hstages.bind ((Noted.yields_ofError htable).bind (Noted.yields_pure _)))
  exact ⟨_, congrArg Prod.fst hbuild.outcome_eq⟩

/-- The names of a pipeline's table are those that the table finds the resources of the shaders
under, each once. -/
theorem names_of_build {pipeline : RemappedPipeline}
    (h : (build name shaders m device).outcome.1 = .ok pipeline) :
    (∀ u ∈ uses shaders, u.Admitted m.mapping) ∧
      (pipeline.table.map TableEntry.name).Nodup ∧
      ∀ key, key ∈ pipeline.table.map TableEntry.name ↔
        ∃ u ∈ uses shaders, u.FoundAs m.mapping key := by
  obtain ⟨hstages, htable⟩ := build_returns (Noted.returns_of_outcome h)
  have hlists := relocated_of_build hstages
  exact ⟨(forall_admitted_iff hlists).1 (build_eq_ok_iff.1 htable).1, nodup_names_build htable,
    fun key => (mem_names_build htable).trans (exists_foundAs_iff hlists)⟩

/-- How the names of the table and of the remapper go together. Let the shaders agree, and let each
of them be one that can be remapped. Then there is a pipeline exactly if the table finds every
resource, under an entry that admits its stage. Its table has exactly the names that the table finds
resources under, each once. A resource for which nothing hangs on the suffix is found as the same by
the table and by the remapper; and if all resources are, and the entries that the remapper finds
admit their stages, then there is a pipeline, and its table has exactly the names that the remapper
finds resources under, each once. -/
theorem build_resolution (hmode : m.options.mode = .patch)
    (hcheck : CrossStage.check name (shaders.filterMap Compiled.resources) = .ok ())
    (hshaders : ∀ c ∈ shaders, Remappable m c) :
    ((∃ pipeline, (build name shaders m device).outcome.1 = .ok pipeline) ↔
        ∀ u ∈ uses shaders, u.Admitted m.mapping) ∧
      (∀ pipeline, (build name shaders m device).outcome.1 = .ok pipeline →
        (pipeline.table.map TableEntry.name).Nodup ∧
          ∀ key, key ∈ pipeline.table.map TableEntry.name ↔
            ∃ u ∈ uses shaders, u.FoundAs m.mapping key) ∧
      (∀ u : Use, u.Unambiguous m → u.remapped m = u.resolve m.mapping) ∧
      ((∀ u ∈ uses shaders, u.remapped m = u.resolve m.mapping) →
        (∀ u ∈ uses shaders, ∀ resolved, u.remapped m = .ok resolved →
          resolved.entry.stages.mem u.1.stage = true) →
        ∃ pipeline, (build name shaders m device).outcome.1 = .ok pipeline ∧
          (pipeline.table.map TableEntry.name).Nodup ∧
          ∀ key, key ∈ pipeline.table.map TableEntry.name ↔ ∃ u ∈ uses shaders, ∃ resolved,
            u.remapped m = .ok resolved ∧ resolved.key = key) := by
  refine ⟨⟨?_, exists_build hmode hcheck hshaders⟩, fun pipeline h => (names_of_build h).2,
    fun u hu => hu.remapped_eq, fun halike hstages => ?_⟩
  · rintro ⟨pipeline, h⟩
    exact (names_of_build h).1
  · have hadmitted : ∀ u ∈ uses shaders, u.Admitted m.mapping := by
      intro u hu
      obtain ⟨resolved, hresolved⟩ := exists_remapped hmode hshaders hu
      exact ⟨resolved, (halike u hu).symm.trans hresolved, hstages u hu resolved hresolved⟩
    obtain ⟨pipeline, h⟩ : ∃ pipeline, (build name shaders m device).outcome.1 = .ok pipeline :=
      exists_build hmode hcheck hshaders hadmitted
    obtain ⟨-, hnodup, hnames⟩ := names_of_build h
    refine ⟨pipeline, h, hnodup, fun key => (hnames key).trans ?_⟩
    simp only [Use.FoundAs]
    constructor
    · rintro ⟨u, hu, hfound⟩
      exact ⟨u, hu, halike u hu ▸ hfound⟩
    · rintro ⟨u, hu, hfound⟩
      exact ⟨u, hu, halike u hu ▸ hfound⟩

/-- An array in two elements that the list has apart, each bound where the other belongs. -/
def looseList (stage : Stage) (suffix : Option String) : ResourceList where
  shader := "s"
  stage
  language := .wgsl
  resources := [Remapper.single "t_1" ⟨0, 0⟩, Remapper.single "t_0" ⟨0, 1⟩]
  arraySuffix := suffix

/-- The shader of the list. -/
def loose (stage : Stage) (suffix : Option String) : Compiled where
  name := "s"
  stage
  entryPoint := "main"
  language := .wgsl
  artifact := .wgsl ("@group(0) @binding(1) var t_0: texture_2d<f32>;\n" ++
    "@group(0) @binding(0) var t_1: texture_2d<f32>;\n")
  resources := some (looseList stage suffix)

theorem remappable_loose {stage : Stage} {suffix : Option String}
    (h : (m.remapStage (loose stage suffix).artifact
      (looseList stage suffix)).outcome.1.toOption.isSome = true) :
    Remappable m (loose stage suffix) := by
  cases hrun : (m.remapStage (loose stage suffix).artifact (looseList stage suffix)).outcome.1 with
  | error e =>
    rw [hrun] at h
    cases h
  | ok remapped => exact ⟨looseList stage suffix, remapped, rfl, hrun⟩

/-- The layout of the pair has one name, which all stages may use. -/
theorem key_of_pairLayout {key : String} {entry : Entry}
    (h : Remapper.pairLayout.mapping.get? key = some entry) (stage : Stage) :
    key = "t" ∧ entry.stages.mem stage = true := by
  have hentries : Remapper.pairLayout.mapping.entries =
      [("t", { group := 0, binding := 0, arraySize := 2 })] := by
    decide +kernel
  have hmem := Mapping.mem_entries_of_get? h
  rw [hentries, List.mem_singleton] at hmem
  cases hmem
  exact ⟨rfl, StageSet.mem_all stage⟩

/-- Two stages have both elements each, and their table has the array once. -/
theorem build_resolution_loose : ∃ pipeline,
    (build "P" [loose .vertex (some "_"), loose .pixel (some "_")] Remapper.pairLayout
        .webGpu).outcome.1 = .ok pipeline ∧
      (pipeline.table.map TableEntry.name).Nodup ∧
      ∀ key, key ∈ pipeline.table.map TableEntry.name ↔ key = "t" := by
  have hremappable : ∀ c ∈ [loose .vertex (some "_"), loose .pixel (some "_")],
      Remappable Remapper.pairLayout c := by
    simp only [List.forall_mem_cons, List.not_mem_nil, false_imp_iff, implies_true, and_true]
    exact ⟨remappable_loose (by decide +kernel), remappable_loose (by decide +kernel)⟩
  have hfound : ∀ (u : Use) resolved, u.remapped Remapper.pairLayout = .ok resolved →
      resolved.key = "t" ∧ resolved.entry.stages.mem u.1.stage = true :=
    fun u resolved hresolved => key_of_pairLayout (Mapping.get?_of_resolve hresolved) u.1.stage
  obtain ⟨-, -, halike, hbuild⟩ := build_resolution rfl rfl hremappable
  obtain ⟨pipeline, hpipeline, hnodup, hnames⟩ := hbuild
    (fun u _ => halike u (.inr rfl)) (fun u _ resolved h => (hfound u resolved h).2)
  refine ⟨pipeline, hpipeline, hnodup, fun key => (hnames key).trans ⟨?_, ?_⟩⟩
  · rintro ⟨u, -, resolved, hresolved, rfl⟩
    exact (hfound u resolved hresolved).1
  · rintro rfl
    have hu : (looseList .vertex (some "_"), Remapper.single "t_1" ⟨0, 0⟩) ∈
        uses [loose .vertex (some "_"), loose .pixel (some "_")] := List.mem_cons_self
    obtain ⟨resolved, hresolved⟩ := exists_remapped rfl hremappable hu
    exact ⟨_, hu, resolved, hresolved, (hfound _ resolved hresolved).1⟩

/-- A remapper to the layout of the pair that brings its own suffix. -/
def apart : Remapper :=
  { Remapper.pairLayout with options := { arraySuffix := some "_" } }

/-- A list without a suffix, and a remapper that has one. The stage can be remapped, and the
remapper finds its resources as elements of the array; but no pipeline is made, since the table does
not find them. -/
theorem not_build_loose :
    CrossStage.check "P" ([loose .pixel none].filterMap Compiled.resources) = .ok () ∧
      (∀ c ∈ [loose .pixel none], Remappable apart c) ∧
      (∀ u ∈ uses [loose .pixel none], ∃ resolved, u.remapped apart = .ok resolved ∧
        resolved.entry.stages.mem u.1.stage = true) ∧
      ∀ device, ¬ ∃ pipeline,
        (build "P" [loose .pixel none] apart device).outcome.1 = .ok pipeline := by
  have hremappable : ∀ c ∈ [loose .pixel none], Remappable apart c := by
    intro c hc
    rw [List.mem_singleton.1 hc]
    exact remappable_loose (by decide +kernel)
  refine ⟨rfl, hremappable, fun u hu => ?_, ?_⟩
  · obtain ⟨resolved, hresolved⟩ := exists_remapped rfl hremappable hu
    exact ⟨resolved, hresolved, (key_of_pairLayout (Mapping.get?_of_resolve hresolved) _).2⟩
  · rintro device ⟨pipeline, h⟩
    have hu : (looseList .pixel none, Remapper.single "t_1" ⟨0, 0⟩) ∈ uses [loose .pixel none] :=
      List.mem_cons_self
    obtain ⟨resolved, hresolved, -⟩ := (names_of_build h).1 _ hu
    cases hresolved

end RemappedPipeline

end ShaderBind
