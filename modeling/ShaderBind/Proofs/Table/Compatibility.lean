import ShaderBind.Proofs.Remap.CrossStage
import ShaderBind.Proofs.Table.Pipeline

/-!
# What an entry of a table says of the resources behind it

An entry takes its category and its part for the device from one of the resources that are found
under its name (`exists_madeFor`), and they are right for every resource that is compatible with
that one (`MadeFor.congr`). Stages are compared by the names that authors gave, and in each stage
the first resource of a name speaks for it. So an entry is right for all its resources where they
carry one author's name and each speaks for it in its stage (`build_compatible`). But a layout can
give one entry to resources of several author's names, which are never compared
(`build_incompatible`).
-/

namespace ShaderBind

/-- The category of the entry and its part for the device are those of the resource. -/
structure TableEntry.MadeFor (device : Device) (r : Resource) (t : TableEntry) : Prop where
  category_eq : t.category = r.category
  backend_eq : t.backend = .ofResource device r t.flags

theorem Backend.ofResource_congr {r s : Resource} (h : r.Compatible s) (device : Device)
    (flags : LayoutFlags) : Backend.ofResource device r flags = .ofResource device s flags := by
  simp only [Backend.ofResource, BindingType.ofResource, h.category_eq, h.dimension_eq,
    h.sampleType_eq, h.format_eq]

theorem TableEntry.MadeFor.congr {device : Device} {r s : Resource} {t : TableEntry}
    (ht : t.MadeFor device r) (h : r.Compatible s) : t.MadeFor device s :=
  ⟨ht.category_eq.trans h.category_eq, ht.backend_eq.trans (Backend.ofResource_congr h _ _)⟩

namespace BindingTable

/-- The resource speaks for its name in its stage. -/
def Use.Speaks (u : Use) : Prop :=
  u.2 ∈ CrossStage.firstOfEach u.1.resources

/-- An entry is made for a resource that is found under its name. -/
theorem exists_madeFor {mapping : Mapping} {device : Device} {stages : List ResourceList}
    {table : BindingTable} (h : build mapping device stages = .ok table) :
    ∀ t ∈ table, ∃ u ∈ uses stages, u.FoundAs mapping t.name ∧ t.MadeFor device u.2 := by
  refine forall_mem_build h (fun _ _ ⟨u, hu, hfound, hmade⟩ => ?_) fun u hu resolved hresolve => ?_
  · exact ⟨u, hu, hfound, hmade.category_eq, hmade.backend_eq⟩
  · exact ⟨u, hu, ⟨resolved, hresolve, rfl⟩, rfl, rfl⟩

end BindingTable

open BindingTable

namespace RemappedPipeline

variable {name : String} {shaders : List Compiled} {m : Remapper} {device : Device}
  {pipeline : RemappedPipeline}

/-- Resources that speak for one name are alike in all stages of a pipeline. -/
theorem alike_of_build (h : (build name shaders m device).Returns pipeline) {u v : Use}
    (hu : u ∈ uses shaders) (hv : v ∈ uses shaders) (hus : u.Speaks) (hvs : v.Speaks)
    (hname : u.2.semanticName = v.2.semanticName) : u.2.Alike v.2 := by
  have hl : u.1 ∈ shaders.filterMap Compiled.resources := (mem_uses.1 hu).1
  have hl' : v.1 ∈ shaders.filterMap Compiled.resources := (mem_uses.1 hv).1
  exact CrossStage.agree_of_check (check_of_build h) hl hl' u.2 hus v.2 hvs hname

/-- An entry is made for a resource that some shader has. -/
theorem exists_madeFor_of_build (h : (build name shaders m device).Returns pipeline)
    {t : TableEntry} (ht : t ∈ pipeline.table) :
    ∃ u ∈ uses shaders, u.FoundAs m.mapping t.name ∧ t.MadeFor device u.2 := by
  obtain ⟨hstages, htable⟩ := build_returns h
  obtain ⟨u', hu', hfound, hmade⟩ := exists_madeFor htable t ht
  obtain ⟨u, hu, hrelocated⟩ := exists_relocated_before (relocated_of_build hstages) hu'
  refine ⟨u, hu, hrelocated.foundAs_iff.1 hfound, ?_⟩
  obtain ⟨-, place, elements, hr⟩ := hrelocated
  rw [hr] at hmade
  exact ⟨hmade.category_eq, hmade.backend_eq⟩

/-- What a pipeline says of its resources. Those that speak for one name in their stages are alike.
Every entry of the table is made for one of the resources that are found under its name. And where
the resources found under a name of the layout all speak for one author's name, any two of them are
compatible, and the entry is made for each of them. -/
theorem build_compatible (h : (build name shaders m device).outcome.1 = .ok pipeline) :
    (∀ u ∈ uses shaders, ∀ v ∈ uses shaders, u.Speaks → v.Speaks →
        u.2.semanticName = v.2.semanticName → u.2.Alike v.2) ∧
      (∀ t ∈ pipeline.table,
        ∃ u ∈ uses shaders, u.FoundAs m.mapping t.name ∧ t.MadeFor device u.2) ∧
      ∀ key author, (∀ u ∈ uses shaders, u.FoundAs m.mapping key →
          u.Speaks ∧ u.2.semanticName = author) →
        ∀ u ∈ uses shaders, u.FoundAs m.mapping key →
          (∀ v ∈ uses shaders, v.FoundAs m.mapping key → u.2.Compatible v.2) ∧
          ∀ t ∈ pipeline.table, t.name = key → t.MadeFor device u.2 := by
  have hreturns := Noted.returns_of_outcome h
  have halike : ∀ u ∈ uses shaders, ∀ v ∈ uses shaders, u.Speaks → v.Speaks →
      u.2.semanticName = v.2.semanticName → u.2.Alike v.2 :=
    fun u hu v hv => alike_of_build hreturns hu hv
  refine ⟨halike, fun t => exists_madeFor_of_build hreturns, fun key author hkey => ?_⟩
  have hcompatible : ∀ u ∈ uses shaders, u.FoundAs m.mapping key →
      ∀ v ∈ uses shaders, v.FoundAs m.mapping key → u.2.Compatible v.2 := by
    intro u hu hfound v hv hfound'
    obtain ⟨hus, huname⟩ := hkey u hu hfound
    obtain ⟨hvs, hvname⟩ := hkey v hv hfound'
    exact (halike u hu v hv hus hvs (huname.trans hvname.symm)).toCompatible
  refine fun u hu hfound => ⟨hcompatible u hu hfound, ?_⟩
  rintro t ht rfl
  obtain ⟨v, hv, hfound', hmade⟩ := exists_madeFor_of_build hreturns ht
  exact hmade.congr (hcompatible v hv hfound' u hu hfound)

/-- A uniform buffer. -/
def block (name : String) (altName : Option String) : Resource :=
  { name, altName, category := .uniformBuffer, dimension := .buffer, place := ⟨0, 0⟩ }

/-- A shader with one resource. -/
def holding (stage : Stage) (r : Resource) (text : String) : Compiled where
  name := "s"
  stage
  entryPoint := "main"
  language := .wgsl
  artifact := .wgsl ("@group(0) @binding(0) " ++ text)
  resources := some { shader := "s", stage, language := .wgsl, resources := [r] }

/-- A layout with one name. -/
def oneName (name : String) : Remapper where
  mapping := .ofEntries [(name, { group := 0, binding := 0 })]

/-- A buffer in two stages, which a compiler named anew in one of them. -/
def renamed : List Compiled :=
  [holding .vertex (block "b_1" (some "b")) "var<uniform> b_1: vec4<f32>;",
   holding .pixel (block "b" none) "var<uniform> b: vec4<f32>;"]

/-- Two stages use one resource under different names. -/
theorem build_compatible_renamed : ∃ pipeline,
    (build "P" renamed (oneName "b") .webGpu).outcome.1 = .ok pipeline ∧
      pipeline.table.map TableEntry.name = ["b"] ∧
      ∀ u ∈ uses renamed, (∀ v ∈ uses renamed, u.2.Compatible v.2) ∧
        ∀ t ∈ pipeline.table, t.MadeFor .webGpu u.2 := by
  have hview : (build "P" renamed (oneName "b") .webGpu).outcome.1.toOption.map
      (fun p => p.table.map TableEntry.name) = some ["b"] := by
    decide +kernel
  obtain ⟨pipeline, hpipeline, hnames⟩ := exists_ok_of_map_toOption hview
  -- both resources speak for the author's name, and are found under it
  have huses : ∀ u ∈ uses renamed, u.FoundAs (oneName "b").mapping "b" ∧ u.Speaks ∧
      u.2.semanticName = "b" := by
    have huses : uses renamed = [(_, block "b_1" (some "b")), (_, block "b" none)] := rfl
    rw [huses]
    simp only [List.forall_mem_cons, List.not_mem_nil, false_imp_iff, implies_true, and_true]
    exact ⟨⟨⟨_, rfl, rfl⟩, List.mem_cons_self, rfl⟩, ⟨_, rfl, rfl⟩, List.mem_cons_self, rfl⟩
  obtain ⟨-, -, hcompatible⟩ := build_compatible hpipeline
  refine ⟨pipeline, hpipeline, hnames, fun u hu => ?_⟩
  obtain ⟨hpairs, hentries⟩ :=
    hcompatible "b" "b" (fun u hu _ => (huses u hu).2) u hu (huses u hu).1
  refine ⟨fun v hv => hpairs v hv (huses v hv).1, fun t ht => hentries t ht ?_⟩
  have : t.name ∈ pipeline.table.map TableEntry.name := List.mem_map_of_mem ht
  rw [hnames] at this
  exact List.mem_singleton.1 this

/-- A buffer whose author's name the compiler changed, and a texture that has the new name. -/
def clashing : List Compiled :=
  [holding .vertex (block "b_1" (some "b")) "var<uniform> b_1: vec4<f32>;",
   holding .pixel (Remapper.single "b_1" ⟨0, 0⟩) "var b_1: texture_2d<f32>;"]

/-- The buffer and the texture are found under one name of the layout, and pass as one entry, which
is not made for the texture. -/
theorem build_incompatible : ∃ pipeline,
    (build "P" clashing (oneName "b_1") .webGpu).outcome.1 = .ok pipeline ∧
      ∃ u ∈ uses clashing, ∃ v ∈ uses clashing,
        u.FoundAs (oneName "b_1").mapping "b_1" ∧ v.FoundAs (oneName "b_1").mapping "b_1" ∧
        ¬ u.2.Compatible v.2 ∧
        ∃ t ∈ pipeline.table, t.name = "b_1" ∧ ¬ t.MadeFor .webGpu v.2 := by
  have hview : (build "P" clashing (oneName "b_1") .webGpu).outcome.1.toOption.map
      (fun p => p.table.map fun t => (t.name, t.category)) = some [("b_1", .uniformBuffer)] := by
    decide +kernel
  obtain ⟨pipeline, hpipeline, htable⟩ := exists_ok_of_map_toOption hview
  obtain ⟨t, ht, hentry⟩ : ∃ t ∈ pipeline.table, (t.name, t.category) = ("b_1", .uniformBuffer) :=
    List.mem_map.1 (htable ▸ List.mem_cons_self)
  obtain ⟨hname, hcategory⟩ := Prod.mk.inj hentry
  refine ⟨pipeline, hpipeline, _, List.mem_cons_self, _, List.mem_cons_of_mem _ List.mem_cons_self,
    ⟨_, rfl, rfl⟩, ⟨_, rfl, rfl⟩, fun h => ?_, t, ht, hname, fun h => ?_⟩
  · cases h.category_eq
  · cases hcategory.symm.trans h.category_eq

end RemappedPipeline

end ShaderBind
