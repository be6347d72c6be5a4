import ShaderBind.Module.Reflect
import ShaderBind.Proofs.Module.Assignment
import ShaderBind.Proofs.Resource.Runs

/-!
# Reflection of assigned modules

A variable that is bound becomes one resource with the variable's name and place, and no array of it
is empty (`Global.classify_eq_ok`). Where bound variables have places of their own, as they do after
an assignment, the resources of an entry point therefore always make a list: reflection fails only
where the entry point cannot be picked or a variable is of a type that no resource has, and
otherwise lists every bound variable that the entry point uses (`reflect_assignBindings`).
-/

namespace ShaderBind

namespace Global

/-! ## Variables as resources -/

/-- The name that a variable has in the shader's text. -/
def emittedName (g : Global) : String :=
  g.name.getD ""

/-- The declaration of a variable that has a place. -/
def declaration? (g : Global) : Option Declaration :=
  g.place.map fun place => ⟨g.emittedName, place⟩

/-- The group of the resource that a variable is, if there is one. -/
def group? (g : Global) : Option CategoryGroup :=
  g.place.bind fun place =>
    (g.classify g.emittedName place).toOption.map fun r => r.category.group

/-- The resource of a variable whose elements have a type, by the variable's space. -/
def ofSpace (name : String) (place : Coord) (type : ShaderType) :
    AddressSpace → Except VariableFault Resource
  | .uniform => .ok { Resource.ofCategory name .uniformBuffer place with staticSize := type.size }
  | .storage access =>
    .ok { Resource.ofCategory name (bufferCategory access) place with stride := type.elementStride }
  | _ => classifyHandle name place type

/-- A variable is classified by the type of its elements and by its space. -/
theorem classify_eq (g : Global) (name : String) (place : Coord) :
    g.classify name place = (elementType g.type).bind fun (type, arraySize) =>
      (ofSpace name place type g.space).map fun r => { r with arraySize } := by
  unfold classify
  cases elementType g.type with
  | error fault => rfl
  | ok element =>
    cases g.space with
    | uniform | storage => rfl
    | _ =>
      change (classifyHandle name place element.1).bind _ = (classifyHandle ..).map _
      cases classifyHandle name place element.1 <;> rfl

/-- A resource has the name and the place of its variable. -/
theorem ofSpace_eq_ok {name : String} {place : Coord} {type : ShaderType} {space : AddressSpace}
    {r : Resource} (h : ofSpace name place type space = .ok r) :
    r.name = name ∧ r.place = place ∧ r.elements = [] := by
  unfold ofSpace at h
  split at h
  · cases h
    exact ⟨rfl, rfl, rfl⟩
  · cases h
    exact ⟨rfl, rfl, rfl⟩
  · unfold classifyHandle at h
    split at h
    next imageClass =>
      cases h
      cases imageClass <;> exact ⟨rfl, rfl, rfl⟩
    · cases h
      exact ⟨rfl, rfl, rfl⟩
    · cases h
      exact ⟨rfl, rfl, rfl⟩
    · cases h

/-- No array of bindings is empty. -/
theorem ne_zero_of_elementType {type base : ShaderType} {n : UInt32}
    (h : elementType type = .ok (base, n)) : n ≠ 0 := by
  unfold elementType at h
  split at h
  next hn =>
    cases h
    exact hn
  · cases h
  · cases h
    decide

/-- A variable becomes a single resource with its name and place, of at least one element. -/
theorem classify_eq_ok {g : Global} {name : String} {place : Coord} {r : Resource}
    (h : g.classify name place = .ok r) :
    r.name = name ∧ r.place = place ∧ r.elements = [] ∧ r.arraySize ≠ 0 := by
  rw [classify_eq] at h
  obtain ⟨⟨type, n⟩, htype, h⟩ := bind_eq_ok_iff.1 h
  obtain ⟨r₀, hr₀, rfl⟩ := map_eq_ok_iff.1 h
  obtain ⟨hname, hplace, helements⟩ := ofSpace_eq_ok hr₀
  exact ⟨hname, hplace, helements, ne_zero_of_elementType htype⟩

section

variable {types : List ShaderType} {request : ReflectRequest} {g : Global} {place : Coord}

/-- A variable that is no resource stops the reflection, with its name and its type. -/
theorem run_reflect_of_error {fault : VariableFault}
    (h : g.classify g.emittedName place = .error fault) (noted : List String) :
    (g.reflect types request place).run.run noted =
      (.error (.failed (.unsupportedResource request.shader g.emittedName
        (fault.inModule types))), noted) := by
  unfold emittedName at h
  unfold reflect
  simp only [h]
  rfl

/-- A reflected variable is the resource that it is classified as, with a name and a layout
added. -/
theorem run_reflect_of_ok {r : Resource} (h : g.classify g.emittedName place = .ok r)
    (noted : List String) :
    ∃ altName layout noted',
      (g.reflect types request place).run.run noted =
        (.ok { r with altName, layout }, noted') := by
  unfold emittedName at h
  unfold reflect
  simp only [h, pure_bind]
  split
  · exact ⟨_, _, _, rfl⟩
  · exact ⟨_, _, _, rfl⟩

theorem returns_reflect {r : Resource} (h : (g.reflect types request place).Returns r) :
    ∃ r₀ altName layout, g.classify g.emittedName place = .ok r₀ ∧
      r = { r₀ with altName, layout } := by
  obtain ⟨before, after, h⟩ := h
  cases hclassify : g.classify g.emittedName place with
  | error fault => cases h.symm.trans (run_reflect_of_error hclassify before)
  | ok r₀ =>
    obtain ⟨altName, layout, noted, hrun⟩ := run_reflect_of_ok hclassify before
    cases h.symm.trans hrun
    exact ⟨r₀, altName, layout, rfl, rfl⟩

/-- A reflection of a variable stops for its type and for nothing else. -/
theorem stops_reflect {e : Stop} (h : (g.reflect types request place).Stops e) :
    ∃ fault, g.classify g.emittedName place = .error fault ∧
      e = .failed (.unsupportedResource request.shader g.emittedName
        (fault.inModule types)) := by
  obtain ⟨before, after, h⟩ := h
  cases hclassify : g.classify g.emittedName place with
  | error fault =>
    cases h.symm.trans (run_reflect_of_error hclassify before)
    exact ⟨fault, rfl, rfl⟩
  | ok r =>
    obtain ⟨altName, layout, noted, hrun⟩ := run_reflect_of_ok hclassify before
    cases h.symm.trans hrun

end

end Global

/-- The failures of making a list: two declarations at one place, or an array without elements. -/
def Stop.IsListFault (stop : Stop) : Prop :=
  (∃ shader first second place,
    stop = .failed (.unsupported shader (.sharedCoordinates first second place))) ∨
      ∃ shader name, stop = .failed (.unsupportedResource shader name .zeroSizedArray)

namespace ShaderModule

/-! ## Modules with places -/

/-- The bound variables that an entry point uses, in the order of the module. -/
def boundUses (m : ShaderModule) (e : EntryPoint) : List Global :=
  (m.globals.zipIdx.filter fun x => x.1.space.isBound && e.uses.contains x.2).map Prod.fst

/-- Each bound variable has a place of its own. -/
structure Placed (m : ShaderModule) : Prop where
  exists_place : ∀ g ∈ m.globals, g.space.isBound = true → ∃ place, g.place = some place
  nodup : (Assign.places m.globals).Nodup

theorem usedGlobals_eq (m : ShaderModule) (e : EntryPoint) :
    m.usedGlobals e =
      (m.boundUses e).filterMap fun g => g.place.map fun place => (g, place) := by
  rw [boundUses, List.filterMap_map, List.filterMap_filter]
  rfl

/-- The bound variables that are used are some of the bound variables. -/
theorem boundUses_sublist (m : ShaderModule) (e : EntryPoint) :
    (m.boundUses e).Sublist (Assign.bound m.globals) := by
  have hbound : Assign.bound m.globals =
      (m.globals.zipIdx.filter fun x => x.1.space.isBound).map Prod.fst := by
    nth_rewrite 1 [← List.zipIdx_map_fst 0 m.globals]
    exact List.filter_map
  rw [hbound]
  refine List.Sublist.map Prod.fst (List.monotone_filter_right _ fun x hx => ?_)
  simp only [Bool.and_eq_true] at hx
  exact hx.1

theorem place_of_mem_usedGlobals {m : ShaderModule} {e : EntryPoint} {u : Global × Coord}
    (h : u ∈ m.usedGlobals e) : u.1 ∈ m.boundUses e ∧ u.1.place = some u.2 := by
  rw [usedGlobals_eq] at h
  obtain ⟨g, hg, hu⟩ := List.mem_filterMap.1 h
  obtain ⟨place, hplace, rfl⟩ := Option.map_eq_some_iff.1 hu
  exact ⟨hg, hplace⟩

theorem Placed.nodup_usedGlobals {m : ShaderModule} (h : m.Placed) (e : EntryPoint) :
    ((m.usedGlobals e).map Prod.snd).Nodup := by
  have hmap : (m.usedGlobals e).map Prod.snd = (m.boundUses e).filterMap Global.place := by
    rw [usedGlobals_eq, List.map_filterMap]
    exact List.filterMap_congr fun g _ => by cases g.place <;> rfl
  rw [hmap]
  exact h.nodup.sublist ((m.boundUses_sublist e).filterMap _)

/-- No bound variable that is used is left out. -/
theorem Placed.map_fst_usedGlobals {m : ShaderModule} (h : m.Placed) (e : EntryPoint) :
    (m.usedGlobals e).map Prod.fst = m.boundUses e := by
  have hsome : ∀ g ∈ m.boundUses e,
      (g.place.map fun place => (g, place)).map Prod.fst = some g := by
    intro g hg
    obtain ⟨hmem, hbound⟩ := List.mem_filter.1 ((m.boundUses_sublist e).subset hg)
    obtain ⟨place, hplace⟩ := h.exists_place g hmem hbound
    rw [hplace]
    rfl
  rw [usedGlobals_eq, List.map_filterMap, List.filterMap_congr hsome, List.filterMap_some]

/-- An assignment gives every bound variable a place of its own. -/
theorem placed_assignBindings (m : ShaderModule) (hfew : m.globals.length < UInt32.size) :
    m.assignBindings.1.Placed := by
  obtain ⟨-, hglobals, hnodup⟩ :=
    m.assignBindings_spec (Nat.lt_of_le_of_lt (Assign.length_bound_le _) hfew)
  refine ⟨fun g' hg' hspace => ?_, hnodup⟩
  obtain ⟨g, -, ⟨place, rfl⟩, hplace⟩ := Remapper.exists_of_forall₂ hglobals hg'
  exact hplace hspace

/-! ## Reflected lists -/

/-- The variables that were reflected, one by one: each gives a single declaration. -/
theorem returns_mapM_reflect {types : List ShaderType} {request : ReflectRequest}
    {us : List (Global × Coord)} {rs : List Resource}
    (h : Noted.Returns (us.mapM fun (g, place) => Global.reflect types request g place) rs)
    (hplace : ∀ u ∈ us, u.1.place = some u.2) :
    (∀ r ∈ rs, r.declarations = [⟨r.name, r.place⟩] ∧ r.arraySize ≠ 0) ∧
      rs.map Resource.place = us.map Prod.snd ∧
      rs.map (fun r => (some r.category.group, some (⟨r.name, r.place⟩ : Declaration))) =
        us.map fun u => (u.1.group?, u.1.declaration?) := by
  have hall := Noted.returns_mapM h
  clear h
  induction hall with
  | nil => exact ⟨by simp, rfl, rfl⟩
  | @cons u r us rs hreflect _ ih =>
    obtain ⟨hu, hplace⟩ := List.forall_mem_cons.1 hplace
    obtain ⟨hsingle, hplaces, hpairs⟩ := ih hplace
    obtain ⟨r₀, altName, layout, hclassify, rfl⟩ := Global.returns_reflect hreflect
    obtain ⟨hname, hat, helements, hsize⟩ := Global.classify_eq_ok hclassify
    have hgroup : u.1.group? = some r₀.category.group := by
      rw [Global.group?, hu, Option.bind_some, hclassify]
      rfl
    have hdeclaration : u.1.declaration? = some ⟨r₀.name, r₀.place⟩ := by
      rw [Global.declaration?, hu, Option.map_some, hname, hat]
    refine ⟨List.forall_mem_cons.2 ⟨⟨?_, hsize⟩, hsingle⟩, ?_, ?_⟩
    · simp [Resource.declarations, helements]
    · rw [List.map_cons, List.map_cons, hplaces, ← hat]
    · rw [List.map_cons, List.map_cons, hpairs, hgroup, hdeclaration]

/-- An entry point uses a bound variable of a type that no resource has. -/
def Refused (m : ShaderModule) (request : ReflectRequest) (e : EntryPoint) (stop : Stop) : Prop :=
  ∃ g ∈ m.boundUses e, ∃ place ∈ g.place, ∃ fault,
    g.classify g.emittedName place = .error fault ∧
      stop = .failed (.unsupportedResource request.shader g.emittedName (fault.inModule m.types))

/-- The declarations of a list are those of the bound variables that an entry point uses, one for
each: group by group, and in the order of the module inside a group. -/
def Lists (m : ShaderModule) (e : EntryPoint) (l : ResourceList) : Prop :=
  (∀ g ∈ m.boundUses e, ∃ group, g.group? = some group) ∧
    l.declarations.map some = CategoryGroup.all.flatMap fun group =>
      ((m.boundUses e).filter fun g => g.group? = some group).map Global.declaration?

theorem flatMap_declarations {rs : List Resource}
    (h : ∀ r ∈ rs, r.declarations = [⟨r.name, r.place⟩]) :
    rs.flatMap Resource.declarations = rs.map fun r => ⟨r.name, r.place⟩ := by
  rw [List.map_eq_flatMap]
  exact List.flatMap_congr h

/-- What stands at a group on both sides of lists that agree in groups and declarations. -/
theorem map_filter_group {rs : List Resource} {gs : List Global}
    (h : rs.map (fun r => (some r.category.group, some (⟨r.name, r.place⟩ : Declaration))) =
      gs.map fun g => (g.group?, g.declaration?)) (group : CategoryGroup) :
    (rs.filter fun r => r.category.group = group).map
        (fun r => some (⟨r.name, r.place⟩ : Declaration)) =
      (gs.filter fun g => g.group? = some group).map Global.declaration? := by
  have hfilter := congrArg
    (fun xs => (xs.filter fun x => x.1 = some group).map Prod.snd) h
  simpa [List.filter_map, Function.comp_def] using hfilter

/-- Variables that were reflected are listed, if they have places of their own. -/
theorem lists_of_reflected {m : ShaderModule} (hm : m.Placed) {request : ReflectRequest}
    {e : EntryPoint} {rs : List Resource}
    (h : Noted.Returns
      ((m.usedGlobals e).mapM fun (g, place) => Global.reflect m.types request g place) rs)
    (shader : String) (stage : Stage) (language : Language) :
    ∃ l, ResourceList.build shader stage language rs = .ok l ∧ m.Lists e l := by
  obtain ⟨hsingle, hplaces, hpairs⟩ :=
    returns_mapM_reflect h fun u hu => (place_of_mem_usedGlobals hu).2
  have hpairs : rs.map (fun r => (some r.category.group, some (⟨r.name, r.place⟩ : Declaration))) =
      (m.boundUses e).map fun g => (g.group?, g.declaration?) := by
    rw [hpairs, ← hm.map_fst_usedGlobals e, List.map_map]
    rfl
  have hnodup : ((rs.flatMap Resource.declarations).map Declaration.place).Nodup := by
    rw [flatMap_declarations fun r hr => (hsingle r hr).1, List.map_map]
    exact hplaces ▸ hm.nodup_usedGlobals e
  refine ⟨_, ResourceList.build_of_nodup (fun r hr => (hsingle r hr).2) hnodup, ?_, ?_⟩
  · intro g hg
    have hmem := List.mem_map_of_mem (f := fun g : Global => (g.group?, g.declaration?)) hg
    rw [← hpairs] at hmem
    obtain ⟨r, -, hr⟩ := List.mem_map.1 hmem
    exact ⟨r.category.group, (congrArg Prod.fst hr).symm⟩
  · have hperm : (ResourceList.arrange rs).Perm rs := List.mergeSort_perm ..
    rw [ResourceList.declarations,
      flatMap_declarations fun r hr => (hsingle r (hperm.mem_iff.1 hr)).1, List.map_map,
      ResourceList.arrange_eq_flatMap, List.map_flatMap]
    exact List.flatMap_congr fun group _ => map_filter_group hpairs group

/-- Entry points are picked or not for what they are alone. -/
theorem stops_entryPoint {m : ShaderModule} {shader : String} {stage : Option Stage}
    {name : Option String} {e : Stop} (h : (m.entryPoint shader stage name).Stops e) :
    e = .failed (.noEntryPoints shader) ∨ e = .failed (.ambiguousEntryPoint shader) ∨
      ∃ missing, e = .failed (.entryPointNotFound shader missing) := by
  unfold entryPoint at h
  split at h
  · exact .inl (Noted.stops_fail_iff.1 h)
  split at h
  · split at h
    · exact .inr (.inr ⟨_, Noted.stops_fail_iff.1 h⟩)
    · exact .inr (.inr ⟨_, Noted.stops_fail_iff.1 h⟩)
    · exact .inr (.inl (Noted.stops_fail_iff.1 h))
  · exact absurd h Noted.not_stops_pure
  · split at h
    · exact .inr (.inl (Noted.stops_fail_iff.1 h))
    · rcases h.bind_inv with h | ⟨_, -, h⟩
      · obtain ⟨_, _, h⟩ := h
        cases congrArg Prod.fst h
      · exact absurd h Noted.not_stops_pure

/-- The resources of an entry point, once it is picked. -/
def reflectEntry (m : ShaderModule) (request : ReflectRequest) (e : EntryPoint) :
    Noted Reflected := do
  let resources ← (m.usedGlobals e).mapM fun (g, place) => g.reflect m.types request place
  let list ← Noted.ofError (ResourceList.build request.shader e.stage request.language resources)
  return ⟨e.name, e.stage, list.withCombinedSamplerSuffix request.combinedSamplerSuffix⟩

theorem reflect_eq (m : ShaderModule) (request : ReflectRequest) :
    m.reflect request =
      (m.entryPoint request.shader request.stage request.entryPoint >>= fun (e, _) =>
        m.reflectEntry request e) :=
  rfl

/-- Reflection of placed variables stops only at one that is no resource. -/
theorem Placed.refused {m : ShaderModule} (hm : m.Placed) {request : ReflectRequest}
    {e : EntryPoint} {stop : Stop} (h : (m.reflectEntry request e).Stops stop) :
    m.Refused request e stop := by
  rcases h.bind_inv with h | ⟨rs, hrs, h⟩
  · obtain ⟨⟨g, place⟩, hu, h⟩ := Noted.stops_mapM h
    obtain ⟨hg, hplace⟩ := place_of_mem_usedGlobals hu
    obtain ⟨fault, hclassify, rfl⟩ := Global.stops_reflect h
    exact ⟨g, hg, place, hplace, fault, hclassify, rfl⟩
  · -- the list can be made, so that nothing stops from here on
    obtain ⟨l, hbuild, -⟩ := lists_of_reflected hm hrs request.shader e.stage request.language
    rcases h.bind_inv with h | ⟨_, -, h⟩
    · obtain ⟨_, herror, -⟩ := Noted.stops_ofError_iff.1 h
      cases hbuild.symm.trans herror
    · exact absurd h Noted.not_stops_pure

/-- Reflection of placed variables lists them all. -/
theorem Placed.lists {m : ShaderModule} (hm : m.Placed) {request : ReflectRequest}
    {e : EntryPoint} {r : Reflected} (h : (m.reflectEntry request e).Returns r) :
    r.entryPoint = e.name ∧ r.stage = e.stage ∧ m.Lists e r.resources := by
  obtain ⟨rs, hrs, h⟩ := h.bind_inv
  obtain ⟨l, hl, h⟩ := h.bind_inv
  obtain ⟨l', hbuild, hlists⟩ := lists_of_reflected hm hrs request.shader e.stage request.language
  cases hbuild.symm.trans (Noted.returns_ofError_iff.1 hl)
  cases Noted.returns_pure_iff.1 h
  exact ⟨rfl, rfl, hlists⟩

/-- To pick an entry point fails in other ways than to make a list. -/
theorem not_isListFault_of_entryPoint {m : ShaderModule} {shader : String} {stage : Option Stage}
    {name : Option String} {stop : Stop} (h : (m.entryPoint shader stage name).Stops stop) :
    ¬ stop.IsListFault := by
  rcases stops_entryPoint h with rfl | rfl | ⟨missing, rfl⟩ <;> simp [Stop.IsListFault]

theorem Refused.not_isListFault {m : ShaderModule} {request : ReflectRequest} {e : EntryPoint}
    {stop : Stop} (h : m.Refused request e stop) : ¬ stop.IsListFault := by
  obtain ⟨g, -, place, -, fault, -, rfl⟩ := h
  rintro (⟨_, _, _, _, heq⟩ | ⟨_, _, heq⟩)
  · cases heq
  · cases fault <;> cases heq

/-- After an assignment of bindings, which changes nothing but places, reflection fails only where
the entry point cannot be picked or uses a variable that is no resource: never for a place that is
shared or an array without elements. Otherwise the list has one declaration for each bound variable
that the entry point uses, with its name and its place, group by group and in the order of the
module. -/
theorem reflect_assignBindings (m : ShaderModule) (hfew : m.globals.length < UInt32.size)
    (request : ReflectRequest) :
    m.assignBindings.1.entryPoints = m.entryPoints ∧ m.assignBindings.1.types = m.types ∧
      List.Forall₂ (fun g g' => ∃ place, g' = { g with place })
        m.globals m.assignBindings.1.globals ∧
      (∀ stop, (m.assignBindings.1.reflect request).outcome.1 = .error stop →
        ¬ stop.IsListFault ∧
          ((m.entryPoint request.shader request.stage request.entryPoint).outcome.1 =
              .error stop ∨
            ∃ e i, (m.entryPoint request.shader request.stage request.entryPoint).outcome.1 =
              .ok (e, i) ∧ m.assignBindings.1.Refused request e stop)) ∧
      ∀ r, (m.assignBindings.1.reflect request).outcome.1 = .ok r →
        ∃ e i, (m.entryPoint request.shader request.stage request.entryPoint).outcome.1 =
            .ok (e, i) ∧
          r.entryPoint = e.name ∧ r.stage = e.stage ∧
          m.assignBindings.1.Lists e r.resources := by
  have hplaced := m.placed_assignBindings hfew
  obtain ⟨hentries, hglobals, -⟩ :=
    m.assignBindings_spec (Nat.lt_of_le_of_lt (Assign.length_bound_le _) hfew)
  refine ⟨hentries, rfl, hglobals.imp fun _ _ h => h.1, ?_⟩
  have hsame : m.assignBindings.1.entryPoint request.shader request.stage request.entryPoint =
      m.entryPoint request.shader request.stage request.entryPoint := rfl
  unfold Noted.outcome
  rw [reflect_eq, hsame]
  rcases hentry : (m.entryPoint request.shader request.stage request.entryPoint).run.run []
    with ⟨stop | ⟨e, i⟩, noted⟩
  · rw [run_bind_of_error hentry]
    refine ⟨fun _ h => ?_, fun _ h => by cases h⟩
    cases h
    exact ⟨not_isListFault_of_entryPoint ⟨[], noted, hentry⟩, .inl rfl⟩
  · rw [run_bind_of_ok hentry]
    refine ⟨fun stop h => ?_, fun r h => ?_⟩
    · have hrefused := hplaced.refused ⟨noted, _, Prod.ext h rfl⟩
      exact ⟨hrefused.not_isListFault, .inr ⟨e, i, rfl, hrefused⟩⟩
    · exact ⟨e, i, rfl, hplaced.lists ⟨noted, _, Prod.ext h rfl⟩⟩

/-- Variables that share places or have none, of which one is not used and one is not bound. -/
def crowded : ShaderModule where
  globals := [
    ⟨some "t", .handle, .basic none (.image .d2 false (.sampled .float false)), some ⟨0, 0⟩⟩,
    ⟨some "s", .handle, .basic none (.sampler false), none⟩,
    ⟨some "u", .uniform, .basic none (.vector 4 ⟨.float, 4⟩), some ⟨0, 0⟩⟩,
    ⟨some "p", .priv, .basic none (.scalar ⟨.float, 4⟩), none⟩,
    ⟨some "b", .storage { load := true }, .basic none (.scalar ⟨.uint, 4⟩), some ⟨0, 1⟩⟩,
    ⟨some "v", .handle, .bindingArray none (.basic none (.image .d2 false (.depth false)))
      (.constant 4 (by decide)), some ⟨0, 1⟩⟩]
  entryPoints := [⟨"main", .pixel, [0, 1, 2, 3, 5]⟩]

/-- Variables that crowd one place, reflected after an assignment. -/
theorem reflect_assignBindings_crowded :
    crowded.globals.length < UInt32.size ∧
      ∃ r, (crowded.assignBindings.1.reflect { shader := "x", language := .wgsl }).outcome.1 =
          .ok r ∧
        r.resources.declarations =
          [⟨"u", 0, 3⟩, ⟨"t", 0, 0⟩, ⟨"v", 0, 4⟩, ⟨"s", 0, 2⟩] := by
  have hview : (crowded.assignBindings.1.reflect
      { shader := "x", language := .wgsl }).outcome.1.toOption.map (fun r => r.entryPoint) =
      some "main" := by
    decide +kernel
  have hpicked : (crowded.entryPoint "x" none none).outcome.1 =
      .ok (⟨"main", .pixel, [0, 1, 2, 3, 5]⟩, 0) := rfl
  have hfew : crowded.globals.length < UInt32.size := by decide
  obtain ⟨r, hr, -⟩ := exists_ok_of_map_toOption hview
  obtain ⟨e, i, hentry, -, -, -, hdeclarations⟩ :=
    (reflect_assignBindings crowded hfew _).2.2.2.2 r hr
  cases hpicked.symm.trans hentry
  refine ⟨hfew, r, hr, (List.map_inj_right fun _ _ => Option.some.inj).1 ?_⟩
  rw [hdeclarations]
  decide +kernel

end ShaderModule

end ShaderBind
