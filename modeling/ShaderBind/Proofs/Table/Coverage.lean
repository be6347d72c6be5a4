import ShaderBind.Proofs.Table.Grouping
import ShaderBind.Proofs.Table.Pipeline

/-!
# Bind groups and the places of shaders

The bind groups of a table hold one entry for each entry of the table, and no other
(`exists_entry_of_mem`, `exists_of_mem_entries`). An array is one entry with a count, at the binding
of its first element, while remapping gives each declared element a binding of its own. So a
declaration of a remapped stage lies inside the entry of its array, as many bindings behind it as
its slot says, and is met by an entry at its own place exactly if that is the first slot or another
name of the layout happens to stand there (`bindGroups_cover`).
-/

namespace ShaderBind

/-! ## The entries of bind groups -/

namespace BindGroup

/-- Every entry of a table has its entry in the bind group of its number. -/
theorem exists_entry_of_mem {table : BindingTable} {groups : List BindGroup}
    (h : ofTable table = .ok (.ok groups)) {t : TableEntry} (ht : t ∈ table) :
    ∃ g, groups[t.place.group.toNat]? = some g ∧
      ∃ e ∈ g.entries, BindGroupEntry.ofTableEntry t = .ok e := by
  have hgrouped := (ofTable_eq_ok_iff.1 h).2
  obtain ⟨g, hg⟩ := hgrouped.exists_group ht
  obtain ⟨e, he, hread⟩ := hgrouped.exists_entry ht hg
  exact ⟨g, hg, e, he, hread⟩

/-- Every entry of a bind group comes from an entry of the table in that group. -/
theorem exists_of_mem_entries {table : BindingTable} {groups : List BindGroup}
    (h : ofTable table = .ok (.ok groups)) {k : Nat} {g : BindGroup} (hg : groups[k]? = some g)
    {e : BindGroupEntry} (he : e ∈ g.entries) :
    ∃ t ∈ table, t.place.group.toNat = k ∧ BindGroupEntry.ofTableEntry t = .ok e := by
  have hperm := (ofTable_eq_ok_iff.1 h).2.entries k g hg
  obtain ⟨t, ht, hread⟩ := List.mem_map.1 (hperm.mem_iff.1 (List.mem_map_of_mem he))
  obtain ⟨ht, hgroup⟩ := BindingTable.mem_inGroup.1 ht
  exact ⟨t, ht, hgroup, hread⟩

/-- A place has an entry of its own that a stage sees. -/
def Covers (groups : List BindGroup) (stage : Stage) (c : Coord) : Prop :=
  ∃ g, groups[c.group.toNat]? = some g ∧ ∃ e ∈ g.entries, e.binding = c.binding ∧ e.VisibleTo stage

/-- A place lies `k` bindings behind an entry that a stage sees, and inside the array of that
entry. -/
def CoversSlot (groups : List BindGroup) (stage : Stage) (c : Coord) (k : Nat) : Prop :=
  ∃ g, groups[c.group.toNat]? = some g ∧ ∃ e ∈ g.entries,
    e.binding.toNat + k = c.binding.toNat ∧ k < (e.count.getD 1).toNat ∧ e.VisibleTo stage

/-- A place has an entry of its own exactly if an entry of the table stands there. -/
theorem covers_iff {table : BindingTable} {groups : List BindGroup}
    (h : ofTable table = .ok (.ok groups)) {stage : Stage} {c : Coord} :
    Covers groups stage c ↔ ∃ t ∈ table, t.place = c ∧ t.stages.mem stage = true := by
  constructor
  · rintro ⟨g, hg, e, he, hbinding, hvisible⟩
    obtain ⟨t, ht, hgroup, hentry⟩ := exists_of_mem_entries h hg he
    obtain ⟨hbinding', -, hstages⟩ := BindGroupEntry.ofTableEntry_eq_ok hentry
    refine ⟨t, ht, ?_, (hstages stage).1 hvisible⟩
    calc t.place = ⟨t.place.group, t.place.binding⟩ := rfl
      _ = ⟨c.group, c.binding⟩ := by rw [UInt32.toNat_inj.1 hgroup, ← hbinding', hbinding]
  · rintro ⟨t, ht, rfl, hmem⟩
    obtain ⟨g, hg, e, he, hentry⟩ := exists_entry_of_mem h ht
    obtain ⟨hbinding, -, hstages⟩ := BindGroupEntry.ofTableEntry_eq_ok hentry
    exact ⟨g, hg, e, he, hbinding, (hstages stage).2 hmem⟩

end BindGroup

/-! ## Remapped pipelines -/

namespace BindGroup

/-- The entry of a layout's name in the bind groups, seen from a place `k` bindings behind it. -/
theorem coversSlot_of_has {mapping : Mapping} {table : BindingTable} {groups : List BindGroup}
    (h : ofTable table = .ok (.ok groups)) (htable : ∀ t ∈ table, t.FromLayout mapping)
    {key : String} {entry : Entry} {stage : Stage} (hkey : mapping.get? key = some entry)
    (hhas : table.Has key stage) {c : Coord} {k : Nat} (hgroup : c.group = entry.group)
    (hbinding : c.binding.toNat = entry.binding.toNat + k) (hk : k < entry.arraySize.toNat) :
    CoversSlot groups stage c k ∧
      (Covers groups stage c ↔
        k = 0 ∨ ∃ t ∈ table, t.name ≠ key ∧ t.place = c ∧ t.stages.mem stage = true) := by
  have hplace : ∀ t ∈ table, t.name = key →
      t.place = ⟨entry.group, entry.binding⟩ ∧ t.arraySize = entry.arraySize := by
    rintro t ht rfl
    obtain ⟨entry', hget, hplace, hsize⟩ := htable t ht
    cases hkey.symm.trans hget
    exact ⟨hplace, hsize⟩
  obtain ⟨t, ht, hname, hstage⟩ := hhas
  obtain ⟨htplace, htsize⟩ := hplace t ht hname
  constructor
  · obtain ⟨g, hg, e, he, hentry⟩ := exists_entry_of_mem h ht
    obtain ⟨hebinding, hcount, hvisible⟩ := BindGroupEntry.ofTableEntry_eq_ok hentry
    rw [htplace] at hg hebinding
    refine ⟨g, by rw [hgroup]; exact hg, e, he, by rw [hebinding, hbinding], ?_,
      (hvisible stage).2 hstage⟩
    rw [hcount, htsize]
    split
    · exact hk
    next hone =>
      have : entry.arraySize.toNat ≤ 1 := UInt32.le_iff_toNat_le.1 (UInt32.not_lt.1 hone)
      exact Nat.lt_of_lt_of_le hk this
  · rw [covers_iff h]
    constructor
    · rintro ⟨t', ht', hcplace, hstage'⟩
      by_cases hsame : t'.name = key
      · left
        have hc : c = ⟨entry.group, entry.binding⟩ := hcplace.symm.trans (hplace t' ht' hsame).1
        have hb : c.binding = entry.binding := by rw [hc]
        rw [hb] at hbinding
        omega
      · exact .inr ⟨t', ht', hsame, hcplace, hstage'⟩
    · rintro (hzero | ⟨t', ht', -, hcplace, hstage'⟩)
      · refine ⟨t, ht, ?_, hstage⟩
        have hb : c.binding = entry.binding := UInt32.toNat_inj.1 (by omega)
        rw [htplace, ← hgroup, ← hb]
      · exact ⟨t', ht', hcplace, hstage'⟩

/-- The bind groups of a pipeline and the places of its declarations. Each declaration of a remapped
stage is a slot of a resource of the shader's list, and lies as many bindings behind the entry that
the resource resolves to as its slot says. Where the table resolves the resource to the same entry,
the bind groups hold that entry, large enough and seen by the stage; but an entry at the place of
the declaration itself they hold only for the first slot, or if another name of the layout stands
there. -/
theorem bindGroups_cover {name : String} {shaders : List Compiled} {m : Remapper}
    {pipeline : RemappedPipeline} {groups : List BindGroup} (hmode : m.options.mode = .patch)
    (hlists : ∀ c ∈ shaders, ∀ l, c.resources = some l → l.Reachable)
    (hbuild : (RemappedPipeline.build name shaders m .webGpu).outcome.1 = .ok pipeline)
    (hgroups : ofTable pipeline.table = .ok (.ok groups)) :
    ∀ stage ∈ pipeline.stages, ∃ c ∈ shaders, ∃ l moved, c.resources = some l ∧
      stage.resources = some moved ∧
      ∀ d ∈ moved.declarations, ∃ r ∈ l.resources, ∃ s ∈ r.slots, ∃ resolved k,
        m.mapping.resolve l.shader r.name r.altName (m.suffixFor l) = .ok resolved ∧
        k = resolved.slot.toNat + s.2.toNat ∧ d.name = s.1.name ∧
        d.place.group = resolved.entry.group ∧
        d.place.binding.toNat = resolved.entry.binding.toNat + k ∧
        (m.mapping.resolve l.shader r.name r.altName l.arraySuffix = .ok resolved →
          CoversSlot groups moved.stage d.place k ∧
          (Covers groups moved.stage d.place ↔ k = 0 ∨ ∃ t ∈ pipeline.table,
            t.name ≠ resolved.key ∧ t.place = d.place ∧ t.stages.mem moved.stage = true)) := by
  obtain ⟨hstages, htable⟩ := RemappedPipeline.build_returns (Noted.returns_of_outcome hbuild)
  obtain ⟨hlayout, hlisted⟩ := BindingTable.build_eq_ok htable
  intro stage hstage
  obtain ⟨c, hc, hshader⟩ := Remapper.exists_of_forall₂ hstages hstage
  obtain ⟨l, moved, hl, hmoved, hplan⟩ := RemappedPipeline.plan_of_remapShader hmode hshader
  have hwell := (hlists c hc l hl).wellformed
  have hplanned := Remapper.plan_eq_ok hplan hwell
  refine ⟨c, hc, l, moved, hl, hmoved, fun d hd => ?_⟩
  rw [hplanned.after_eq] at hd
  obtain ⟨p, hp, rfl⟩ := List.mem_map.1 hd
  obtain ⟨r, hr, r', hr', ps, resolved, hresource, s, hs, hfor⟩ := hplanned.slots p hp
  refine ⟨r, hr, s, hs, resolved, _, hresource.resolve_eq, rfl, ?_, hfor.group_eq, ?_,
    fun hsame => ?_⟩
  · change p.before.name = s.1.name
    rw [hfor.before_eq]
  · rw [← Nat.add_assoc]
    exact hfor.binding_eq
  · -- the table looks the moved resource up, by the same names
    obtain ⟨resolved', hresolve', hhas⟩ :=
      hlisted moved (List.mem_filterMap.2 ⟨stage, hstage, hmoved⟩) r' hr'
    rw [hplanned.shader_eq, hplanned.arraySuffix_eq, Mapping.resolve_usable, hresource.name_eq,
      hresource.altName_eq, hsame] at hresolve'
    cases hresolve'
    refine coversSlot_of_has hgroups hlayout (Mapping.get?_of_resolve hsame) hhas hfor.group_eq
      (by rw [← Nat.add_assoc]; exact hfor.binding_eq) ?_
    have hindex := Resource.index_lt_of_mem_slots (hwell.sound r hr) hs
    have hfits := hresource.fits
    omega

/-- A shader with an array in two elements, each bound where the other belongs. -/
def crossedShader : Compiled where
  name := "s"
  stage := .pixel
  entryPoint := "main"
  language := .wgsl
  artifact := .wgsl ("@group(0) @binding(1) var t_0: texture_2d<f32>;\n" ++
    "@group(0) @binding(0) var t_1: texture_2d<f32>;\n")
  resources := some Remapper.crossed

/-- The shader alone makes a pipeline, with one entry in its table and one in its bind groups. -/
theorem crossed_pipeline : ∃ pipeline groups,
    (RemappedPipeline.build "P" [crossedShader] Remapper.pairLayout .webGpu).outcome.1 =
        .ok pipeline ∧
      pipeline.table.map TableEntry.place = [⟨0, 0⟩] ∧
      (∃ stage moved, pipeline.stages = [stage] ∧ stage.resources = some moved ∧
        moved.declarations = [⟨"t_0", ⟨0, 0⟩⟩, ⟨"t_1", ⟨0, 1⟩⟩]) ∧
      ofTable pipeline.table = .ok (.ok groups) := by
  let view (p : RemappedPipeline) :=
    (p.table, p.stages.map fun s => s.resources.map ResourceList.declarations)
  have hview : (RemappedPipeline.build "P" [crossedShader] Remapper.pairLayout
      .webGpu).outcome.1.toOption.map view = some
        ([{ name := "t", stages := .single .pixel, category := .sampledTexture, arraySize := 2,
            place := ⟨0, 0⟩, flags := {},
            backend := .webGpu .floatTexture (some .tex2D) none }],
          [some [⟨"t_0", ⟨0, 0⟩⟩, ⟨"t_1", ⟨0, 1⟩⟩]]) := by
    decide +kernel
  obtain ⟨pipeline, hrun, hpipeline⟩ := exists_ok_of_map_toOption hview
  simp only [Prod.mk.injEq, view] at hpipeline
  obtain ⟨htable, hstages⟩ := hpipeline
  obtain ⟨stage, rest, hstage, hmoved, hrest⟩ := List.map_eq_cons_iff.1 hstages
  obtain ⟨moved, hmoved, hdeclared⟩ := Option.map_eq_some_iff.1 hmoved
  rw [List.map_eq_nil_iff.1 hrest] at hstage
  exact ⟨pipeline, [⟨0, [⟨0, [.fragment], some 2, .texture .float .d2 false⟩]⟩], hrun,
    by rw [htable]; rfl, ⟨stage, moved, hstage, hmoved, hdeclared⟩,
    by rw [htable]; decide +kernel⟩

/-- The elements that were bound crosswise are covered. -/
theorem bindGroups_cover_crossed : ∃ pipeline groups,
    (RemappedPipeline.build "P" [crossedShader] Remapper.pairLayout .webGpu).outcome.1 =
        .ok pipeline ∧
      ofTable pipeline.table = .ok (.ok groups) ∧
      ∀ stage ∈ pipeline.stages, ∃ moved, stage.resources = some moved ∧
        ∀ d ∈ moved.declarations, ∃ k, CoversSlot groups moved.stage d.place k := by
  obtain ⟨pipeline, groups, hbuild, -, -, hgroups⟩ := crossed_pipeline
  refine ⟨pipeline, groups, hbuild, hgroups, fun stage hstage => ?_⟩
  have hlists : ∀ c ∈ [crossedShader], ∀ l, c.resources = some l → l = Remapper.crossed := by
    intro c hc l hl
    rw [List.mem_singleton.1 hc] at hl
    exact (Option.some.inj hl).symm
  obtain ⟨c, hc, l, moved, hl, hmoved, hcover⟩ := bindGroups_cover rfl
    (fun c hc l hl => hlists c hc l hl ▸ Remapper.crossed_reachable) hbuild hgroups stage hstage
  refine ⟨moved, hmoved, fun d hd => ?_⟩
  obtain ⟨r, -, s, -, resolved, k, hresolve, -, -, -, -, hsame⟩ := hcover d hd
  cases hlists c hc l hl
  exact ⟨k, (hsame hresolve).1⟩

/-- The second element of the array has no entry at its place. -/
theorem crossed_not_covered : ∃ pipeline groups,
    (RemappedPipeline.build "P" [crossedShader] Remapper.pairLayout .webGpu).outcome.1 =
        .ok pipeline ∧
      ofTable pipeline.table = .ok (.ok groups) ∧
      ∃ stage ∈ pipeline.stages, ∃ moved, stage.resources = some moved ∧
        ∃ d ∈ moved.declarations, ¬ Covers groups moved.stage d.place := by
  obtain ⟨pipeline, groups, hbuild, hplaces, ⟨stage, moved, hstages, hmoved, hdeclared⟩, hgroups⟩ :=
    crossed_pipeline
  refine ⟨pipeline, groups, hbuild, hgroups, stage, by simp [hstages], moved, hmoved,
    ⟨"t_1", ⟨0, 1⟩⟩, by simp [hdeclared], fun hcovers => ?_⟩
  obtain ⟨t, ht, hplace, -⟩ := (covers_iff hgroups).1 hcovers
  have : t.place ∈ pipeline.table.map TableEntry.place := List.mem_map_of_mem ht
  rw [hplaces, hplace] at this
  exact absurd this (by decide)

end BindGroup

end ShaderBind
