import ShaderBind.Proofs.Layout.Lookup
import ShaderBind.Proofs.Outcome
import ShaderBind.Table.Binding

/-!
# What a binding table holds

A table is built in one pass over the resources of all stages (`BindingTable.uses`). It is there
exactly if every resource is found under an entry of the layout that admits its stage, and then it
is what adding their entries one by one makes of the empty table (`build_eq_ok_iff`). So what it
holds is read off the additions: one entry for each name (`nodup_names_build`), for exactly the
names that resources are found under (`mem_names_build`), each with the place and the size that the
layout gives its name, and seen by the stages that use it (`build_eq_ok`).
-/

namespace ShaderBind

/-- The entry has the place and the size of the layout's entry of its name. -/
def TableEntry.FromLayout (mapping : Mapping) (t : TableEntry) : Prop :=
  ∃ entry, mapping.get? t.name = some entry ∧ t.place = ⟨entry.group, entry.binding⟩ ∧
    t.arraySize = entry.arraySize

namespace BindingTable

/-! ## Entries added one by one -/

/-- The table has an entry of a name that a stage sees. -/
def Has (name : String) (stage : Stage) (table : BindingTable) : Prop :=
  ∃ t ∈ table, t.name = name ∧ t.stages.mem stage = true

theorem has_add {new : TableEntry} {table : BindingTable} {name : String} {stage : Stage} :
    (add new table).Has name stage ↔
      table.Has name stage ∨ new.name = name ∧ new.stages.mem stage = true := by
  induction table with
  | nil => simp [add, Has]
  | cons e es ih =>
    simp only [Has, List.mem_cons, or_and_right, exists_or, exists_eq_left] at ih ⊢
    unfold add
    split
    next hname =>
      simp only [List.mem_cons, or_and_right, exists_or, exists_eq_left, StageSet.mem_union,
        Bool.or_eq_true, hname, and_or_left]
      exact or_right_comm
    next => simp only [List.mem_cons, or_and_right, exists_or, exists_eq_left, ih, or_assoc]

/-- The names after an addition: a new one comes last. -/
theorem names_add (new : TableEntry) (table : BindingTable) :
    (add new table).map TableEntry.name =
      if new.name ∈ table.map TableEntry.name then table.map TableEntry.name
      else table.map TableEntry.name ++ [new.name] := by
  induction table with
  | nil => rfl
  | cons e es ih =>
    unfold add
    split
    next hname => simp [hname]
    next hname =>
      by_cases hold : new.name ∈ es.map TableEntry.name <;>
        simp [ih, hold, Ne.symm hname]

/-- What holds of every entry and does not depend on its stages holds after an addition. -/
theorem forall_mem_add {P : TableEntry → Prop} (hstages : ∀ t s, P t → P { t with stages := s })
    {new : TableEntry} {table : BindingTable} (hnew : P new) (htable : ∀ t ∈ table, P t) :
    ∀ t ∈ add new table, P t := by
  induction table with
  | nil => simpa [add] using hnew
  | cons e es ih =>
    obtain ⟨he, hes⟩ := List.forall_mem_cons.1 htable
    unfold add
    split
    · exact List.forall_mem_cons.2 ⟨hstages e _ he, hes⟩
    · exact List.forall_mem_cons.2 ⟨he, ih hes⟩

/-- The table with entries added in turn. -/
def addAll (table : BindingTable) (new : List TableEntry) : BindingTable :=
  new.foldl (fun table t => add t table) table

theorem has_addAll {table : BindingTable} {new : List TableEntry} {name : String} {stage : Stage} :
    (addAll table new).Has name stage ↔
      table.Has name stage ∨ ∃ t ∈ new, t.name = name ∧ t.stages.mem stage = true := by
  induction new generalizing table with
  | nil => simp [addAll]
  | cons t new ih =>
    rw [addAll, List.foldl_cons]
    refine ih.trans ?_
    rw [has_add, or_assoc]
    simp

theorem mem_names_addAll {table : BindingTable} {new : List TableEntry} {name : String} :
    name ∈ (addAll table new).map TableEntry.name ↔
      name ∈ table.map TableEntry.name ∨ name ∈ new.map TableEntry.name := by
  induction new generalizing table with
  | nil => simp [addAll]
  | cons t new ih =>
    rw [addAll, List.foldl_cons]
    refine ih.trans ?_
    rw [names_add, List.map_cons, List.mem_cons, ← or_assoc]
    refine or_congr_left ?_
    split
    next hold =>
      refine ⟨.inl, fun h => h.elim id ?_⟩
      rintro rfl
      exact hold
    next => rw [List.mem_append, List.mem_singleton]

theorem nodup_names_addAll {table : BindingTable} {new : List TableEntry}
    (h : (table.map TableEntry.name).Nodup) : ((addAll table new).map TableEntry.name).Nodup := by
  induction new generalizing table with
  | nil => exact h
  | cons t new ih =>
    refine ih ?_
    rw [names_add]
    split
    · exact h
    next hnew =>
      refine List.nodup_append.2 ⟨h, by simp, ?_⟩
      rintro name hname _ hlast rfl
      exact hnew (List.mem_singleton.1 hlast ▸ hname)

theorem forall_mem_addAll {P : TableEntry → Prop} (hstages : ∀ t s, P t → P { t with stages := s })
    {table : BindingTable} {new : List TableEntry} (hnew : ∀ t ∈ new, P t)
    (htable : ∀ t ∈ table, P t) : ∀ t ∈ addAll table new, P t := by
  induction new generalizing table with
  | nil => exact htable
  | cons t new ih =>
    obtain ⟨ht, hnew⟩ := List.forall_mem_cons.1 hnew
    exact ih hnew (forall_mem_add hstages ht htable)

/-! ## The resources of all stages -/

/-- A resource and the list of its stage. -/
abbrev Use := ResourceList × Resource

/-- The resources of the stages, in the order in which the table meets them. -/
def uses (stages : List ResourceList) : List Use :=
  stages.flatMap fun l => l.resources.map fun r => (l, r)

theorem mem_uses {stages : List ResourceList} {l : ResourceList} {r : Resource} :
    (l, r) ∈ uses stages ↔ l ∈ stages ∧ r ∈ l.resources := by
  simp only [uses, List.mem_flatMap, List.mem_map, Prod.mk.injEq]
  constructor
  · rintro ⟨l', hl, r', hr, rfl, rfl⟩
    exact ⟨hl, hr⟩
  · rintro ⟨hl, hr⟩
    exact ⟨l, hl, r, hr, rfl, rfl⟩

/-- What the table finds a resource as. Names are taken apart by the suffix of the list. -/
def Use.resolve (mapping : Mapping) (u : Use) : Except ShaderError Mapping.Resolved :=
  mapping.resolve u.1.shader u.2.name u.2.altName u.1.arraySuffix

/-- The table finds the resource under a name of the layout. -/
def Use.FoundAs (mapping : Mapping) (key : String) (u : Use) : Prop :=
  ∃ resolved, u.resolve mapping = .ok resolved ∧ resolved.key = key

/-- The table finds the resource, under an entry of the layout that admits its stage. -/
def Use.Admitted (mapping : Mapping) (u : Use) : Prop :=
  ∃ resolved, u.resolve mapping = .ok resolved ∧ resolved.entry.stages.mem u.1.stage = true

/-- The entry for a resource, if it is found. -/
def Use.entry? (mapping : Mapping) (device : Device) (u : Use) : Option TableEntry :=
  (u.resolve mapping).toOption.map (entryFor device u.1.stage u.2)

theorem Use.entry?_of_resolve {mapping : Mapping} {device : Device} {u : Use}
    {resolved : Mapping.Resolved} (h : u.resolve mapping = .ok resolved) :
    u.entry? mapping device = some (entryFor device u.1.stage u.2 resolved) := by
  rw [Use.entry?, h]
  rfl

theorem Use.entry?_eq_some_iff {mapping : Mapping} {device : Device} {u : Use} {t : TableEntry} :
    u.entry? mapping device = some t ↔ ∃ resolved, u.resolve mapping = .ok resolved ∧
      t = entryFor device u.1.stage u.2 resolved := by
  rw [Use.entry?]
  cases u.resolve mapping <;> simp [Except.toOption, eq_comm]

/-- One stage goes well exactly if all its resources are admitted, and adds their entries. -/
theorem addStage_eq_ok_iff {mapping : Mapping} {device : Device} {l : ResourceList}
    {table out : BindingTable} {rs : List Resource} :
    addStage mapping device l table rs = .ok out ↔
      (∀ u ∈ rs.map fun r => (l, r), Use.Admitted mapping u) ∧
        out = addAll table ((rs.map fun r => (l, r)).filterMap (Use.entry? mapping device)) := by
  induction rs generalizing table out with
  | nil =>
    constructor
    · intro h
      cases h
      exact ⟨by simp, rfl⟩
    · rintro ⟨-, rfl⟩
      rfl
  | cons r rs ih =>
    rw [addStage, bind_eq_ok_iff, List.map_cons, List.forall_mem_cons]
    constructor
    · rintro ⟨resolved, hresolve, h⟩
      have hentry : Use.entry? mapping device (l, r) = some (entryFor device l.stage r resolved) :=
        Use.entry?_of_resolve hresolve
      split at h
      next hmem =>
        obtain ⟨hrest, rfl⟩ := ih.1 h
        refine ⟨⟨⟨resolved, hresolve, hmem⟩, hrest⟩, ?_⟩
        rw [List.filterMap_cons_some hentry]
        rfl
      next => cases h
    · rintro ⟨⟨⟨resolved, hresolve, hmem⟩, hrest⟩, rfl⟩
      refine ⟨resolved, hresolve, ?_⟩
      rw [if_pos hmem, List.filterMap_cons_some (Use.entry?_of_resolve hresolve)]
      exact ih.2 ⟨hrest, rfl⟩

/-- The run: a table is there exactly if all resources of all stages are admitted, and is made of
their entries. -/
theorem foldlM_addStage_eq_ok_iff {mapping : Mapping} {device : Device}
    {stages : List ResourceList} {before table : BindingTable} :
    stages.foldlM (fun table l => addStage mapping device l table l.resources) before = .ok table ↔
      (∀ u ∈ uses stages, u.Admitted mapping) ∧
        table = addAll before ((uses stages).filterMap (Use.entry? mapping device)) := by
  induction stages generalizing before with
  | nil =>
    constructor
    · intro h
      cases h
      exact ⟨by simp [uses], rfl⟩
    · rintro ⟨-, rfl⟩
      rfl
  | cons l stages ih =>
    have huses : uses (l :: stages) = (l.resources.map fun r => (l, r)) ++ uses stages := rfl
    simp only [List.foldlM_cons, bind_eq_ok_iff, addStage_eq_ok_iff, ih]
    rw [huses, List.forall_mem_append, List.filterMap_append]
    constructor
    · rintro ⟨_, ⟨hfirst, rfl⟩, hrest, rfl⟩
      exact ⟨⟨hfirst, hrest⟩, List.foldl_append.symm⟩
    · rintro ⟨⟨hfirst, hrest⟩, rfl⟩
      exact ⟨_, ⟨hfirst, rfl⟩, hrest, List.foldl_append⟩

theorem build_eq_ok_iff {mapping : Mapping} {device : Device} {stages : List ResourceList}
    {table : BindingTable} :
    build mapping device stages = .ok table ↔ (∀ u ∈ uses stages, u.Admitted mapping) ∧
      table = addAll [] ((uses stages).filterMap (Use.entry? mapping device)) :=
  foldlM_addStage_eq_ok_iff

/-! ## Built tables -/

section

variable {mapping : Mapping} {device : Device} {stages : List ResourceList} {table : BindingTable}
  (h : build mapping device stages = .ok table)

include h

/-- No name comes twice. -/
theorem nodup_names_build : (table.map TableEntry.name).Nodup := by
  rw [(build_eq_ok_iff.1 h).2]
  exact nodup_names_addAll .nil

/-- The names are those that resources are found under. -/
theorem mem_names_build {name : String} :
    name ∈ table.map TableEntry.name ↔ ∃ u ∈ uses stages, u.FoundAs mapping name := by
  rw [(build_eq_ok_iff.1 h).2, mem_names_addAll]
  simp only [List.map_nil, List.not_mem_nil, false_or, List.mem_map, List.mem_filterMap,
    Use.entry?_eq_some_iff]
  constructor
  · rintro ⟨t, ⟨u, hu, resolved, hresolve, rfl⟩, rfl⟩
    exact ⟨u, hu, resolved, hresolve, rfl⟩
  · rintro ⟨u, hu, resolved, hresolve, rfl⟩
    exact ⟨_, ⟨u, hu, resolved, hresolve, rfl⟩, rfl⟩

/-- What holds of the entry of every resource, and does not depend on its stages, holds of every
entry. -/
theorem forall_mem_build {P : TableEntry → Prop} (hstages : ∀ t s, P t → P { t with stages := s })
    (hentries : ∀ u ∈ uses stages, ∀ resolved, u.resolve mapping = .ok resolved →
      P (entryFor device u.1.stage u.2 resolved)) : ∀ t ∈ table, P t := by
  rw [(build_eq_ok_iff.1 h).2]
  refine forall_mem_addAll hstages (fun t ht => ?_) (by simp)
  obtain ⟨u, hu, ht⟩ := List.mem_filterMap.1 ht
  obtain ⟨resolved, hresolve, rfl⟩ := Use.entry?_eq_some_iff.1 ht
  exact hentries u hu resolved hresolve

end

/-- What a table says of the resources of a stage. -/
def Lists (mapping : Mapping) (table : BindingTable) (l : ResourceList) (r : Resource) : Prop :=
  ∃ resolved, mapping.resolve l.shader r.name r.altName l.arraySuffix = .ok resolved ∧
    table.Has resolved.key l.stage

theorem build_eq_ok {mapping : Mapping} {device : Device} {stages : List ResourceList}
    {table : BindingTable} (h : build mapping device stages = .ok table) :
    (∀ t ∈ table, t.FromLayout mapping) ∧
      ∀ l ∈ stages, ∀ r ∈ l.resources, Lists mapping table l r := by
  refine ⟨forall_mem_build h (fun _ _ ht => ht) fun u _ resolved hresolve =>
    ⟨resolved.entry, Mapping.get?_of_resolve hresolve, rfl, rfl⟩, fun l hl r hr => ?_⟩
  obtain ⟨hadmitted, rfl⟩ := build_eq_ok_iff.1 h
  have hu : (l, r) ∈ uses stages := mem_uses.2 ⟨hl, hr⟩
  obtain ⟨resolved, hresolve, -⟩ := hadmitted _ hu
  refine ⟨resolved, hresolve, has_addAll.2 (.inr ⟨entryFor device l.stage r resolved, ?_, rfl, ?_⟩)⟩
  · exact List.mem_filterMap.2 ⟨_, hu, Use.entry?_of_resolve hresolve⟩
  · exact (StageSet.mem_single ..).2 rfl

end BindingTable

end ShaderBind
