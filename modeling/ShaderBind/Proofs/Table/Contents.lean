import ShaderBind.Proofs.Table.Binding
import Mathlib.Data.List.Nodup

/-!
# The contents of a binding table

A table that is built holds one entry for each name of the layout that some resource is found under,
in the order in which the resources meet the names. An entry is that of the first resource found
under its name, and in it stand the stages of all of them (`Contents`).

Where no table is built, the first resource that the layout does not have, or has for other stages
only, says why (`FirstRefused`). Either way the outcome is given by the resources of all stages in a
row, whatever stage each belongs to (`build_contents`).
-/

namespace ShaderBind

namespace BindingTable

/-! ## Names and rows -/

/-- The names after additions: those that are new come last, in the order in which they are met. -/
theorem names_addAll (table : BindingTable) (new : List TableEntry) :
    (addAll table new).map TableEntry.name = table.map TableEntry.name ++
      ((new.map TableEntry.name).removeAll (table.map TableEntry.name)).eraseDups := by
  induction new generalizing table with
  | nil => simp [addAll, List.removeAll]
  | cons t new ih =>
    change (addAll (add t table) new).map TableEntry.name = _
    rw [ih, names_add, List.map_cons, List.cons_removeAll]
    generalize table.map TableEntry.name = old
    split
    next hold => rw [if_neg (by simpa using hold)]
    next hnew =>
      have hfilter : (new.map TableEntry.name).removeAll (old ++ [t.name]) =
          ((new.map TableEntry.name).removeAll old).filter fun name => !name == t.name := by
        rw [List.removeAll, List.removeAll, List.filter_filter]
        refine List.filter_congr fun name _ => ?_
        rw [Bool.eq_iff_iff]
        simp [and_comm]
      rw [if_pos (by simpa using hnew), hfilter, List.eraseDups_cons, List.append_assoc,
        List.singleton_append]

/-- The row is the entry, up to its stages. -/
def RowOf (entry row : TableEntry) : Prop :=
  row = { entry with stages := row.stages }

/-- After an addition a row is one from before or, if its name is new, the entry that was added. -/
theorem exists_rowOf_add {new row : TableEntry} {table : BindingTable} (h : row ∈ add new table) :
    (∃ entry ∈ table, RowOf entry row) ∨
      RowOf new row ∧ new.name ∉ table.map TableEntry.name := by
  induction table with
  | nil =>
    obtain rfl := List.mem_singleton.1 h
    exact .inr ⟨rfl, by simp⟩
  | cons e es ih =>
    unfold add at h
    split at h
    next hname =>
      rcases List.mem_cons.1 h with rfl | h
      · exact .inl ⟨e, List.mem_cons_self, rfl⟩
      · exact .inl ⟨row, List.mem_cons_of_mem _ h, rfl⟩
    next hname =>
      rcases List.mem_cons.1 h with rfl | h
      · exact .inl ⟨row, List.mem_cons_self, rfl⟩
      · rcases ih h with ⟨entry, hentry, hrow⟩ | ⟨hrow, hnew⟩
        · exact .inl ⟨entry, List.mem_cons_of_mem _ hentry, hrow⟩
        · refine .inr ⟨hrow, ?_⟩
          rw [List.map_cons, List.mem_cons, not_or]
          exact ⟨Ne.symm hname, hnew⟩

/-- After additions a row is one from before, or the first entry of its name that was added. -/
theorem exists_rowOf_addAll {row : TableEntry} {table : BindingTable} {new : List TableEntry}
    (h : row ∈ addAll table new) :
    (∃ entry ∈ table, RowOf entry row) ∨
      row.name ∉ table.map TableEntry.name ∧ ∃ before entry after, new = before ++ entry :: after ∧
        (∀ t ∈ before, t.name ≠ row.name) ∧ RowOf entry row := by
  induction new generalizing table with
  | nil => exact .inl ⟨row, h, rfl⟩
  | cons t new ih =>
    rcases ih h with ⟨entry, hentry, hrow⟩ | ⟨hname, before, entry, after, rfl, hbefore, hrow⟩
    · rcases exists_rowOf_add hentry with ⟨old, hold, hentry⟩ | ⟨hentry, hnew⟩
      · refine .inl ⟨old, hold, ?_⟩
        rw [RowOf, hrow, hentry]
      · refine .inr ⟨?_, [], t, new, rfl, by simp, ?_⟩
        · rw [hrow, hentry]
          exact hnew
        · rw [RowOf, hrow, hentry]
    · rw [names_add] at hname
      refine .inr ⟨?_, t :: before, entry, after, rfl, List.forall_mem_cons.2 ⟨?_, hbefore⟩, hrow⟩
      · split at hname
        · exact hname
        · exact fun hmem => hname (List.mem_append_left _ hmem)
      · rintro heq
        split at hname
        next hmem => exact hname (heq ▸ hmem)
        next => exact hname (heq ▸ List.mem_append_right _ List.mem_cons_self)

/-! ## The resources that a table is built from -/

/-- The name of the layout that the table finds the resource under. -/
def Use.key? (mapping : Mapping) (u : Use) : Option String :=
  (u.resolve mapping).toOption.map Mapping.Resolved.key

/-- What the table says of a resource that it cannot take: that the layout does not have it, or that
its entry is not for the stage. -/
inductive Use.Refused (mapping : Mapping) (u : Use) : ShaderError → Prop
  | unresolved {e : ShaderError} (h : u.resolve mapping = .error e) : Refused mapping u e
  | excluded {resolved : Mapping.Resolved} (h : u.resolve mapping = .ok resolved)
      (hstage : ¬ resolved.entry.stages.mem u.1.stage = true) :
      Refused mapping u (.layout (.excludedStage resolved.key u.1.stage u.1.shader))

/-- The first resource that the table cannot take, and what is said of it. -/
def FirstRefused (mapping : Mapping) (us : List Use) (e : ShaderError) : Prop :=
  ∃ before u after, us = before ++ u :: after ∧ (∀ v ∈ before, v.Admitted mapping) ∧
    u.Refused mapping e

/-- What a table holds that is built from resources. -/
structure Contents (mapping : Mapping) (device : Device) (us : List Use) (table : BindingTable) :
    Prop where
  /-- No name comes twice. -/
  nodup : (table.map TableEntry.name).Nodup
  /-- The names are those that resources are found under. -/
  found : ∀ key, key ∈ table.map TableEntry.name ↔ ∃ u ∈ us, u.FoundAs mapping key
  /-- They stand in the order in which they are met. -/
  names : table.map TableEntry.name = (us.filterMap (Use.key? mapping)).eraseDups
  /-- An entry is that of the first resource found under its name, but for its stages. -/
  first : ∀ t ∈ table, ∃ before u after resolved, us = before ++ u :: after ∧
    (∀ v ∈ before, ¬ v.FoundAs mapping t.name) ∧ u.resolve mapping = .ok resolved ∧
    t = { entryFor device u.1.stage u.2 resolved with stages := t.stages }
  /-- Its stages are those of all resources found under its name. -/
  stages : ∀ t ∈ table, ∀ stage, t.stages.mem stage = true ↔
    ∃ u ∈ us, u.FoundAs mapping t.name ∧ u.1.stage = stage
  /-- It has what the layout says of its name, and no stage that the layout excludes. -/
  layout : ∀ t ∈ table, ∃ entry, mapping.get? t.name = some entry ∧
    t.place = ⟨entry.group, entry.binding⟩ ∧ t.arraySize = entry.arraySize ∧
    t.flags = entry.flags ∧ ∀ stage, t.stages.mem stage = true → entry.stages.mem stage = true

section

variable {mapping : Mapping} {device : Device} {us vs : List Use} {u : Use} {e : ShaderError}

theorem Use.map_name_entry? :
    (u.entry? mapping device).map TableEntry.name = u.key? mapping := by
  rw [Use.entry?, Use.key?, Option.map_map]
  rfl

theorem firstRefused_cons :
    FirstRefused mapping (u :: us) e ↔
      u.Refused mapping e ∨ u.Admitted mapping ∧ FirstRefused mapping us e := by
  constructor
  · rintro ⟨_ | ⟨v, before⟩, w, after, heq, hbefore, hrefused⟩
    · cases heq
      exact .inl hrefused
    · cases heq
      obtain ⟨hv, hbefore⟩ := List.forall_mem_cons.1 hbefore
      exact .inr ⟨hv, before, w, after, rfl, hbefore, hrefused⟩
  · rintro (hrefused | ⟨hadmitted, before, w, after, rfl, hbefore, hrefused⟩)
    · exact ⟨[], u, us, rfl, by simp, hrefused⟩
    · exact ⟨u :: before, w, after, rfl, List.forall_mem_cons.2 ⟨hadmitted, hbefore⟩, hrefused⟩

theorem not_firstRefused_nil : ¬ FirstRefused mapping [] e := by
  rintro ⟨before, u, after, heq, -⟩
  simp at heq

theorem firstRefused_append :
    FirstRefused mapping (us ++ vs) e ↔ FirstRefused mapping us e ∨
      (∀ u ∈ us, u.Admitted mapping) ∧ FirstRefused mapping vs e := by
  induction us with
  | nil => simp [not_firstRefused_nil]
  | cons u us ih =>
    rw [List.cons_append, firstRefused_cons, ih, firstRefused_cons, List.forall_mem_cons]
    tauto

/-- A stage fails with what is said of the first resource that the table cannot take. -/
theorem addStage_eq_error_iff {l : ResourceList} {table : BindingTable} {rs : List Resource} :
    addStage mapping device l table rs = .error e ↔
      FirstRefused mapping (rs.map fun r => (l, r)) e := by
  induction rs generalizing table with
  | nil => simp [addStage, not_firstRefused_nil]
  | cons r rs ih =>
    rw [addStage, bind_eq_error_iff, List.map_cons, firstRefused_cons]
    constructor
    · rintro (herror | ⟨resolved, hresolve, h⟩)
      · exact .inl (.unresolved herror)
      · split at h
        next hstage => exact .inr ⟨⟨resolved, hresolve, hstage⟩, ih.1 h⟩
        next hstage =>
          cases h
          exact .inl (.excluded hresolve hstage)
    · rintro (hrefused | ⟨⟨resolved, hresolve, hstage⟩, h⟩)
      · cases hrefused with
        | unresolved herror => exact .inl herror
        | excluded hresolve hstage =>
          refine .inr ⟨_, hresolve, ?_⟩
          rw [if_neg hstage]
          rfl
      · refine .inr ⟨resolved, hresolve, ?_⟩
        rw [if_pos hstage]
        exact ih.2 h

theorem foldlM_addStage_eq_error_iff {stages : List ResourceList} {before : BindingTable} :
    stages.foldlM (fun table l => addStage mapping device l table l.resources) before = .error e ↔
      FirstRefused mapping (uses stages) e := by
  induction stages generalizing before with
  | nil => simp [uses, not_firstRefused_nil, pure, Except.pure]
  | cons l stages ih =>
    have huses : uses (l :: stages) = (l.resources.map fun r => (l, r)) ++ uses stages := rfl
    simp only [List.foldlM_cons, bind_eq_error_iff, addStage_eq_error_iff, addStage_eq_ok_iff, ih]
    rw [huses, firstRefused_append]
    refine or_congr_right ⟨?_, ?_⟩
    · rintro ⟨_, ⟨hfirst, -⟩, hrest⟩
      exact ⟨hfirst, hrest⟩
    · rintro ⟨hfirst, hrest⟩
      exact ⟨_, ⟨hfirst, rfl⟩, hrest⟩

/-- The first entry that resources give comes from the first of them that has it. -/
theorem exists_use_of_filterMap {before after : List TableEntry} {t : TableEntry} {name : String}
    (h : us.filterMap (Use.entry? mapping device) = before ++ t :: after)
    (hbefore : ∀ s ∈ before, s.name ≠ name) :
    ∃ us' u us'', us = us' ++ u :: us'' ∧ (∀ v ∈ us', ¬ v.FoundAs mapping name) ∧
      u.entry? mapping device = some t := by
  obtain ⟨front, back, rfl, hfront, hback⟩ := List.filterMap_eq_append_iff.1 h
  obtain ⟨none, u, rest, rfl, hnone, hu, -⟩ := List.filterMap_eq_cons_iff.1 hback
  refine ⟨front ++ none, u, rest, by simp, fun v hv hfound => ?_, hu⟩
  obtain ⟨resolved, hresolve, hkey⟩ := hfound
  have hentry : v.entry? mapping device = some (entryFor device v.1.stage v.2 resolved) :=
    Use.entry?_of_resolve hresolve
  rcases List.mem_append.1 hv with hv | hv
  · have hmem : entryFor device v.1.stage v.2 resolved ∈ before := by
      rw [← hfront]
      exact List.mem_filterMap.2 ⟨v, hv, hentry⟩
    exact hbefore _ hmem hkey
  · rw [hnone v hv] at hentry
    cases hentry

end

section

variable {mapping : Mapping} {device : Device} {stages : List ResourceList} {table : BindingTable}
  (h : build mapping device stages = .ok table)

include h

theorem names_build :
    table.map TableEntry.name = ((uses stages).filterMap (Use.key? mapping)).eraseDups := by
  have hkeys : ((uses stages).filterMap (Use.entry? mapping device)).map TableEntry.name =
      (uses stages).filterMap (Use.key? mapping) := by
    rw [List.map_filterMap]
    exact congrArg (List.filterMap · (uses stages)) (funext fun _ => Use.map_name_entry?)
  rw [(build_eq_ok_iff.1 h).2, names_addAll, hkeys]
  simp [List.removeAll]

theorem exists_first_use {t : TableEntry} (ht : t ∈ table) :
    ∃ before u after resolved, uses stages = before ++ u :: after ∧
      (∀ v ∈ before, ¬ v.FoundAs mapping t.name) ∧ u.resolve mapping = .ok resolved ∧
      t = { entryFor device u.1.stage u.2 resolved with stages := t.stages } := by
  rw [(build_eq_ok_iff.1 h).2] at ht
  obtain ⟨_, hnil, -⟩ | ⟨-, before, entry, after, hnew, hbefore, hrow⟩ := exists_rowOf_addAll ht
  · exact absurd hnil List.not_mem_nil
  · obtain ⟨us, u, us', huses, hnot, hu⟩ := exists_use_of_filterMap hnew hbefore
    obtain ⟨resolved, hresolve, rfl⟩ := Use.entry?_eq_some_iff.1 hu
    exact ⟨us, u, us', resolved, huses, hnot, hresolve, hrow⟩

/-- A name has the stages of the resources that are found under it. -/
theorem has_build_iff {name : String} {stage : Stage} :
    table.Has name stage ↔ ∃ u ∈ uses stages, u.FoundAs mapping name ∧ u.1.stage = stage := by
  rw [(build_eq_ok_iff.1 h).2, has_addAll]
  constructor
  · rintro (⟨_, hnil, -⟩ | ⟨t, ht, hname, hmem⟩)
    · exact absurd hnil List.not_mem_nil
    · obtain ⟨u, hu, hentry⟩ := List.mem_filterMap.1 ht
      obtain ⟨resolved, hresolve, rfl⟩ := Use.entry?_eq_some_iff.1 hentry
      exact ⟨u, hu, ⟨resolved, hresolve, hname⟩, (StageSet.mem_single ..).1 hmem⟩
  · rintro ⟨u, hu, ⟨resolved, hresolve, hname⟩, hstage⟩
    refine .inr ⟨entryFor device u.1.stage u.2 resolved, ?_, hname, ?_⟩
    · exact List.mem_filterMap.2 ⟨u, hu, Use.entry?_of_resolve hresolve⟩
    · exact (StageSet.mem_single ..).2 hstage

/-- Since names do not come twice, an entry has all the stages of its name. -/
theorem mem_stages_build_iff {t : TableEntry} (ht : t ∈ table) {stage : Stage} :
    t.stages.mem stage = true ↔
      ∃ u ∈ uses stages, u.FoundAs mapping t.name ∧ u.1.stage = stage := by
  rw [← has_build_iff h]
  constructor
  · exact fun hmem => ⟨t, ht, rfl, hmem⟩
  · rintro ⟨t', ht', hname, hmem⟩
    rwa [List.inj_on_of_nodup_map (nodup_names_build h) ht' ht hname] at hmem

/-- All resources found under a name have the layout's entry of it, which admits their stages. -/
theorem admits_of_mem_stages {t : TableEntry} (ht : t ∈ table) {entry : Entry}
    (hentry : mapping.get? t.name = some entry) {stage : Stage} (hmem : t.stages.mem stage = true) :
    entry.stages.mem stage = true := by
  obtain ⟨u, hu, ⟨resolved, hresolve, hkey⟩, rfl⟩ := (mem_stages_build_iff h ht).1 hmem
  obtain ⟨resolved', hresolve', hadmits⟩ := (build_eq_ok_iff.1 h).1 u hu
  cases hresolve.symm.trans hresolve'
  have hget := Mapping.get?_of_resolve hresolve
  rw [hkey] at hget
  cases hentry.symm.trans hget
  exact hadmits

/-- A table that was built holds what its resources give. -/
theorem contents_of_build : Contents mapping device (uses stages) table where
  nodup := nodup_names_build h
  found := fun _ => mem_names_build h
  names := names_build h
  first := fun _ => exists_first_use h
  stages := fun _ ht _ => mem_stages_build_iff h ht
  layout := by
    intro t ht
    obtain ⟨-, u, -, resolved, -, -, hresolve, hrow⟩ := exists_first_use h ht
    have hname : t.name = resolved.key := by rw [hrow]; rfl
    have hget : mapping.get? t.name = some resolved.entry := by
      rw [hname]
      exact Mapping.get?_of_resolve hresolve
    exact ⟨resolved.entry, hget, by rw [hrow]; rfl, by rw [hrow]; rfl, by rw [hrow]; rfl,
      fun _ => admits_of_mem_stages h ht hget⟩

end

/-- A table is built exactly if the layout has every resource of every stage, found by the suffix of
its own list, under an entry that admits the stage; the table then holds what the resources give. A
table is refused exactly with what is said of the first resource for which this is not so. -/
theorem build_contents (mapping : Mapping) (device : Device) (stages : List ResourceList) :
    ((∃ table, build mapping device stages = .ok table) ↔
        ∀ u ∈ uses stages, u.Admitted mapping) ∧
      (∀ table, build mapping device stages = .ok table →
        Contents mapping device (uses stages) table) ∧
      ∀ e, build mapping device stages = .error e ↔ FirstRefused mapping (uses stages) e := by
  refine ⟨⟨?_, fun hadmitted => ?_⟩, fun table => contents_of_build,
    fun e => foldlM_addStage_eq_error_iff⟩
  · rintro ⟨table, h⟩
    exact (build_eq_ok_iff.1 h).1
  · exact ⟨_, build_eq_ok_iff.2 ⟨hadmitted, rfl⟩⟩

end BindingTable

end ShaderBind
