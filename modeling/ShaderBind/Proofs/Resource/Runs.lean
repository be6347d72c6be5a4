import ShaderBind.Proofs.Layout.Lookup
import ShaderBind.Proofs.Remap.Plan
import ShaderBind.Proofs.Resource.Merging

/-!
# The runs of a resource list

A list finds the resources of a group by a table of runs, each counted from the end of the one
before it (`ResourceList.runs`). In a list whose resources stand in order of their groups, counting
on stops exactly where the group ends (`takeWhile_group`), so that the run of a group is all its
resources (`group_eq_filter`) and the runs together are the list (`flatMap_group`). Every list that
comes from building, merging, planning and setting suffixes is of this kind (`lists_represented`).
-/

namespace ShaderBind

theorem CategoryGroup.pairwise_rank_all : all.Pairwise fun g h => g.rank < h.rank := by
  decide

theorem CategoryGroup.mem_all (g : CategoryGroup) : g ∈ all := by
  cases g <;> decide

theorem CategoryGroup.getElem?_rank_all (g : CategoryGroup) : all[g.rank]? = some g := by
  cases g <;> rfl

namespace ResourceList

/-! ## Counting -/

section

variable {rs : List Resource} {g : CategoryGroup}

/-- Where no group before `g` occurs, its resources are counted to the last and no further. -/
theorem takeWhile_group (hsorted : rs.Pairwise fun r s => rank r ≤ rank s)
    (hfirst : ∀ r ∈ rs, g.rank ≤ rank r) :
    (rs.takeWhile fun r => r.category.group = g) = rs.filter (fun r => r.category.group = g) ∧
      (rs.dropWhile fun r => r.category.group = g) =
        rs.filter (fun r => !decide (r.category.group = g)) := by
  induction rs with
  | nil => exact ⟨rfl, rfl⟩
  | cons r rs ih =>
    obtain ⟨hr, hrs⟩ := List.pairwise_cons.1 hsorted
    obtain ⟨hle, hfirst⟩ := List.forall_mem_cons.1 hfirst
    by_cases hgroup : r.category.group = g
    · simpa [hgroup] using ih hrs hfirst
    · -- from here on every group comes after `g`
      have hlt : g.rank < rank r :=
        Nat.lt_of_le_of_ne hle fun h => hgroup (CategoryGroup.rank_inj h).symm
      have hafter : ∀ s ∈ rs, s.category.group ≠ g := by
        rintro s hs rfl
        exact absurd (hr s hs) (Nat.not_le.2 hlt)
      have hkept : rs.filter (fun s => !decide (s.category.group = g)) = rs :=
        List.filter_eq_self.2 fun s hs => by simp [hafter s hs]
      simpa [hgroup, hkept] using hafter

/-- Without the resources of a group, the others are there as before. -/
theorem filter_filter_group {h : CategoryGroup} (hne : g ≠ h) :
    (rs.filter fun r => !decide (r.category.group = g)).filter (fun r => r.category.group = h) =
      rs.filter fun r => r.category.group = h := by
  rw [List.filter_filter]
  refine List.filter_congr fun r _ => ?_
  by_cases hgroup : r.category.group = h <;> simp [hgroup, hne.symm]

end

/-- The groups of the resources are among the given ones, which come in order. -/
structure Over (gs : List CategoryGroup) (rs : List Resource) : Prop where
  sorted : rs.Pairwise fun r s => rank r ≤ rank s
  ordered : gs.Pairwise fun g h => g.rank < h.rank
  group_mem : ∀ r ∈ rs, r.category.group ∈ gs

namespace Over

variable {g : CategoryGroup} {gs : List CategoryGroup} {rs : List Resource}

theorem takeWhile_eq (h : Over (g :: gs) rs) :
    (rs.takeWhile fun r => r.category.group = g) = rs.filter (fun r => r.category.group = g) ∧
      (rs.dropWhile fun r => r.category.group = g) =
        rs.filter (fun r => !decide (r.category.group = g)) := by
  refine takeWhile_group h.sorted fun r hr => ?_
  rcases List.mem_cons.1 (h.group_mem r hr) with heq | hmem
  · exact heq ▸ Nat.le_refl _
  · exact Nat.le_of_lt ((List.pairwise_cons.1 h.ordered).1 _ hmem)

theorem rest (h : Over (g :: gs) rs) :
    Over gs (rs.filter fun r => !decide (r.category.group = g)) where
  sorted := h.sorted.sublist List.filter_sublist
  ordered := (List.pairwise_cons.1 h.ordered).2
  group_mem := fun r hr => by
    obtain ⟨hr, hne⟩ := List.mem_filter.1 hr
    exact (List.mem_cons.1 (h.group_mem r hr)).resolve_left (by simpa using hne)

theorem ne_of_mem (h : Over (g :: gs) rs) {g' : CategoryGroup} (hg' : g' ∈ gs) : g ≠ g' :=
  fun heq => Nat.lt_irrefl _ (heq ▸ (List.pairwise_cons.1 h.ordered).1 g' hg')

/-- The resources are those of the first group, then those of the next, and so on. -/
theorem flatMap_filter (h : Over gs rs) :
    (gs.flatMap fun g => rs.filter fun r => r.category.group = g) = rs := by
  induction gs generalizing rs with
  | nil => exact (List.eq_nil_iff_forall_not_mem.2 fun r hr => nomatch h.group_mem r hr).symm
  | cons g gs ih =>
    obtain ⟨htake, hdrop⟩ := h.takeWhile_eq
    have hrest : (gs.flatMap fun g' => rs.filter fun r => r.category.group = g') =
        rs.dropWhile fun r => r.category.group = g := by
      rw [hdrop, ← ih h.rest]
      exact List.flatMap_congr fun g' hg' => (filter_filter_group (h.ne_of_mem hg')).symm
    rw [List.flatMap_cons, hrest, ← htake, List.takeWhile_append_dropWhile]

end Over

/-- The resources of a run. -/
def cut (rs : List Resource) (run : Nat × Nat) : List Resource :=
  (rs.drop run.1).take run.2

/-- The runs that are counted from a place where the groups still to come are `gs`. -/
theorem map_cut_runsFrom {rs : List Resource} {start : Nat} {gs : List CategoryGroup}
    (h : Over gs (rs.drop start)) :
    (runsFrom rs start gs).map (cut rs) =
      gs.map fun g => (rs.drop start).filter fun r => r.category.group = g := by
  induction gs generalizing start with
  | nil => rfl
  | cons g gs ih =>
    obtain ⟨htake, hdrop⟩ := h.takeWhile_eq
    -- the next run begins behind what was counted
    have hnext :
        rs.drop (start + ((rs.drop start).takeWhile fun r => r.category.group = g).length) =
        (rs.drop start).filter fun r => !decide (r.category.group = g) := by
      rw [← List.drop_drop, ← hdrop]
      nth_rewrite 2 [← List.takeWhile_append_dropWhile (p := fun r => r.category.group = g)
        (l := rs.drop start)]
      exact List.drop_left
    rw [runsFrom, List.map_cons, List.map_cons]
    congr 1
    · rw [cut, ← htake]
      exact (List.prefix_iff_eq_take.1 (List.takeWhile_prefix _)).symm
    · rw [ih (hnext ▸ h.rest), hnext]
      exact List.map_congr_left fun g' hg' => filter_filter_group (h.ne_of_mem hg')

/-- Arranging keeps the order inside a group. -/
theorem filter_arrange (rs : List Resource) (g : CategoryGroup) :
    (arrange rs).filter (fun r => r.category.group = g) =
      rs.filter fun r => r.category.group = g := by
  have hgroup : (rs.filter fun r => r.category.group = g).Pairwise
      fun r s => decide (rank r ≤ rank s) = true := by
    refine List.pairwise_of_forall_mem_list fun r hr s hs => ?_
    have hr : r.category.group = g := by simpa using (List.mem_filter.1 hr).2
    have hs : s.category.group = g := by simpa using (List.mem_filter.1 hs).2
    simp [rank, hr, hs]
  have hsub : (rs.filter fun r => r.category.group = g).Sublist (arrange rs) :=
    List.sublist_mergeSort (fun _ _ _ h h' => by simp only [decide_eq_true_eq] at *; omega)
      (fun _ _ => by simp only [Bool.or_eq_true, decide_eq_true_eq]; omega) hgroup
      List.filter_sublist
  have hfilter := hsub.filter fun r => decide (r.category.group = g)
  simp only [List.filter_filter, Bool.and_self] at hfilter
  have hperm : (arrange rs).Perm rs := List.mergeSort_perm ..
  exact (hfilter.eq_of_length (hperm.filter _).length_eq.symm).symm

section

variable {l : ResourceList}

theorem over_all (h : l.resources.Pairwise fun r s => rank r ≤ rank s) :
    Over CategoryGroup.all l.resources :=
  ⟨h, CategoryGroup.pairwise_rank_all, fun r _ => r.category.group.mem_all⟩

/-- The run of a group holds its resources, in order. -/
theorem group_eq_filter (h : l.resources.Pairwise fun r s => rank r ≤ rank s) (g : CategoryGroup) :
    l.group g = l.resources.filter fun r => r.category.group = g := by
  have hruns : l.runs.map (cut l.resources) = _ := map_cut_runsFrom (over_all h)
  have hrun := congrArg (·[g.rank]?) hruns
  simp only [List.getElem?_map, CategoryGroup.getElem?_rank_all, Option.map_some, List.drop_zero,
    Option.map_eq_some_iff] at hrun
  obtain ⟨run, hrun, hcut⟩ := hrun
  rw [group, hrun]
  exact hcut

/-- The runs one after the other are the list. -/
theorem flatMap_group (h : l.resources.Pairwise fun r s => rank r ≤ rank s) :
    CategoryGroup.all.flatMap l.group = l.resources := by
  rw [funext (group_eq_filter h)]
  exact (over_all h).flatMap_filter

/-- Resources that are arranged stand group by group, in the order they were given in. -/
theorem arrange_eq_flatMap (rs : List Resource) :
    arrange rs = CategoryGroup.all.flatMap fun g => rs.filter fun r => r.category.group = g := by
  have hover : Over CategoryGroup.all (arrange rs) :=
    ⟨sorted_arrange rs, CategoryGroup.pairwise_rank_all, fun r _ => r.category.group.mem_all⟩
  calc arrange rs
      = CategoryGroup.all.flatMap fun g => (arrange rs).filter fun r => r.category.group = g :=
        hover.flatMap_filter.symm
    _ = _ := List.flatMap_congr fun g _ => filter_arrange rs g

/-! ## Lists that come about -/

/-- An empty suffix is never kept. -/
theorem Reachable.usable_suffixes (h : l.Reachable) :
    usable l.combinedSamplerSuffix = l.combinedSamplerSuffix ∧
      usable l.arraySuffix = l.arraySuffix := by
  induction h with
  | build hrs h =>
    obtain ⟨rfl, -⟩ := build_eq_ok h
    exact ⟨rfl, rfl⟩
  | merge suffix _ h ih =>
    unfold ResourceList.merge at h
    split at h
    · cases h
      exact ih
    · obtain ⟨_, -, h⟩ := bind_eq_ok_iff.1 h
      obtain ⟨_, -, h⟩ := bind_eq_ok_iff.1 h
      cases h
      exact ⟨usable_usable _, usable_usable (some suffix)⟩
  | plan m _ h _ =>
    obtain ⟨_, _, -, -, rfl, -⟩ := Remapper.plan_eq_ok_iff.1 h
    exact ⟨usable_usable _, usable_usable _⟩
  | withSuffixes combined array _ _ => exact ⟨usable_usable combined, usable_usable array⟩

/-- Each suffix may be set by itself. -/
theorem Reachable.setters (h : l.Reachable) (suffix : Option String) :
    (l.withCombinedSamplerSuffix suffix).Reachable ∧ (l.withArraySuffix suffix).Reachable := by
  obtain ⟨hcombined, harray⟩ := h.usable_suffixes
  constructor
  · have hset := h.withSuffixes suffix l.arraySuffix
    rwa [withArraySuffix, withCombinedSamplerSuffix, harray] at hset
  · have hset := h.withSuffixes l.combinedSamplerSuffix suffix
    rwa [withCombinedSamplerSuffix, hcombined] at hset

end

/-- What resource lists are. A list is built exactly out of resources whose arrays are not empty and
whose declarations have places of their own. Whatever building, merging, planning and setting
suffixes makes of such resources, they stand in order of their groups; the run of a group is all its
resources, and the runs make up the list; no two declarations share a place; and an array made of
elements has them in order of their indices, is one larger than the largest, and stands where its
first element does. -/
theorem lists_represented (shader : String) (stage : Stage) (language : Language)
    (rs : List Resource) {l : ResourceList} (hl : l.Reachable) :
    ((∃ built, build shader stage language rs = .ok built) ↔
        (∀ r ∈ rs, 1 ≤ r.arraySize) ∧
          ((rs.flatMap Resource.declarations).map Declaration.place).Nodup) ∧
      (l.resources.Pairwise fun r s => r.category.group.rank ≤ s.category.group.rank) ∧
      (∀ g, l.group g = l.resources.filter fun r => r.category.group = g) ∧
      CategoryGroup.all.flatMap l.group = l.resources ∧
      (l.declarations.map Declaration.place).Nodup ∧
      ∀ r ∈ l.resources, r.elements ≠ [] →
        (r.elements.Pairwise fun e f => e.index < f.index) ∧
          (∃ e ∈ r.elements, (∀ f ∈ r.elements, f.index ≤ e.index) ∧
            r.arraySize.toNat = e.index.toNat + 1) ∧
          ∃ e ∈ r.elements.head?, (∀ f ∈ r.elements, e.index ≤ f.index) ∧ r.place = e.place := by
  have hwell := hl.wellformed
  refine ⟨?_, hwell.sorted, group_eq_filter hwell.sorted, flatMap_group hwell.sorted, hwell.nodup,
    fun r hr hne => ?_⟩
  · simp only [exists_build_iff, one_le_word_iff]
  · have harranged := (hwell.sound r hr).arranged
    exact ⟨harranged.ordered, harranged.exists_largest hne, harranged.exists_lowest hne⟩

theorem gapped_reachable : gapped.Reachable :=
  .merge "_" (.build (by simp [scattered, Resource.ofCategory]) build_scattered) merge_scattered

/-- Two textures stand in one run, and the array among them has a gap. -/
theorem lists_represented_gapped :
    (gapped.withArraySuffix none).Reachable ∧
      (gapped.withArraySuffix none).group .texture = [gapped.resources[1], gapped.resources[2]] ∧
      CategoryGroup.all.flatMap (gapped.withArraySuffix none).group = gapped.resources ∧
      ∃ e ∈ gapped.resources[1].elements, (∀ f ∈ gapped.resources[1].elements, f.index ≤ e.index) ∧
        gapped.resources[1].arraySize.toNat = e.index.toNat + 1 := by
  have hreachable := (gapped_reachable.setters none).2
  obtain ⟨-, -, hgroup, hruns, -, harrays⟩ :=
    lists_represented "s" .pixel .hlsl gapped.resources hreachable
  exact ⟨hreachable, hgroup .texture, hruns,
    (harrays gapped.resources[1] (by simp [gapped, withArraySuffix]) (by simp [gapped])).2.1⟩

end ResourceList

end ShaderBind
