import ShaderBind.Proofs.Outcome
import ShaderBind.Proofs.Resource.ElementName
import ShaderBind.Resource.Merge
import Mathlib.Data.List.Basic

/-!
# Well-formed resource lists

A list is well formed (`ResourceList.Wellformed`) when its resources stand run by run, no two of its
declarations share a place, and each resource is sound: its array is not empty, and an array made of
elements has them in order of their indices, ends with the last of them and stands where the first
does. Lists are built well formed out of resources without elements (`wellformed_build`), and
merging keeps them so (`Wellformed.merge`).
-/

namespace ShaderBind

/-! ## Sound resources -/

/-- The elements of an array of `size` elements at `place`: in order of their indices, the largest
of which is the last of the array, with the first element at the array's place. -/
structure Element.Arranged (size : UInt32) (place : Coord) (es : List Element) : Prop where
  ordered : es.Pairwise fun e f => e.index < f.index
  index_lt : ∀ e ∈ es, e.index.toNat < size.toNat
  reaches : es ≠ [] → ∃ e ∈ es, e.index.toNat + 1 = size.toNat
  first : ∀ e ∈ es.head?, e.place = place

/-- A resource whose size and place fit its elements. -/
structure Resource.Sound (r : Resource) : Prop where
  arraySize_ne_zero : r.arraySize ≠ 0
  arranged : Element.Arranged r.arraySize r.place r.elements

namespace Element.Arranged

variable {size : UInt32} {place : Coord} {es : List Element}

theorem nil : Element.Arranged size place [] :=
  ⟨.nil, by simp, by simp, by simp⟩

/-- The size of an array is one more than its greatest index. -/
theorem exists_largest (h : Element.Arranged size place es) (hne : es ≠ []) :
    ∃ e ∈ es, (∀ f ∈ es, f.index ≤ e.index) ∧ size.toNat = e.index.toNat + 1 := by
  obtain ⟨e, he, hreach⟩ := h.reaches hne
  refine ⟨e, he, fun f hf => ?_, hreach.symm⟩
  have := h.index_lt f hf
  rw [UInt32.le_iff_toNat_le]
  omega

/-- An array is placed at its lowest element. -/
theorem exists_lowest (h : Element.Arranged size place es) (hne : es ≠ []) :
    ∃ e ∈ es.head?, (∀ f ∈ es, e.index ≤ f.index) ∧ place = e.place := by
  obtain ⟨e, rest, rfl⟩ := List.exists_cons_of_ne_nil hne
  refine ⟨e, rfl, List.forall_mem_cons.2 ⟨UInt32.le_refl _, fun f hf => ?_⟩, (h.first e rfl).symm⟩
  exact UInt32.le_of_lt ((List.pairwise_cons.1 h.ordered).1 f hf)

theorem size_ne_zero (h : Element.Arranged size place es) (hne : es ≠ []) : size ≠ 0 := by
  obtain ⟨e, -, -, hsize⟩ := h.exists_largest hne
  rintro rfl
  simp at hsize

end Element.Arranged

/-! ## Built lists -/

namespace ResourceList

/-- A list in order, with a place of its own for each declaration, of sound resources. -/
structure Wellformed (l : ResourceList) : Prop where
  sorted : l.resources.Pairwise fun r s => rank r ≤ rank s
  nodup : (l.declarations.map Declaration.place).Nodup
  sound : ∀ r ∈ l.resources, r.Sound

/-- Declarations that could be placed have places of their own. -/
theorem placeAll_eq_ok {shader : String} {placed ds out : List Declaration}
    (h : placeAll shader placed ds = .ok out) (hplaced : (placed.map Declaration.place).Nodup) :
    out = ds.reverse ++ placed ∧ (out.map Declaration.place).Nodup := by
  induction ds generalizing placed with
  | nil =>
    cases h
    exact ⟨rfl, hplaced⟩
  | cons d ds ih =>
    unfold placeAll at h
    split at h
    · cases h
    next hfree =>
      have hnot : d.place ∉ placed.map Declaration.place := by
        simpa using hfree
      obtain ⟨rfl, hout⟩ := ih h (List.nodup_cons.2 ⟨hnot, hplaced⟩)
      exact ⟨by simp, hout⟩

/-- Resources that pass have elements and places of their own. -/
theorem checkAll_eq_ok {shader : String} {placed : List Declaration} {rs : List Resource}
    (h : checkAll shader placed rs = .ok ()) (hplaced : (placed.map Declaration.place).Nodup) :
    (∀ r ∈ rs, r.arraySize ≠ 0) ∧
      (((rs.flatMap Resource.declarations).reverse ++ placed).map Declaration.place).Nodup := by
  induction rs generalizing placed with
  | nil => exact ⟨by simp, by simpa using hplaced⟩
  | cons r rs ih =>
    unfold checkAll at h
    split at h
    · cases h
    next hsize =>
      obtain ⟨placed', hplace, hrest⟩ := bind_eq_ok_iff.1 h
      obtain ⟨rfl, hplaced'⟩ := placeAll_eq_ok hplace hplaced
      obtain ⟨hsizes, hnodup⟩ := ih hrest hplaced'
      refine ⟨List.forall_mem_cons.2 ⟨hsize, hsizes⟩, ?_⟩
      rwa [List.flatMap_cons, List.reverse_append, List.append_assoc]

/-- Declarations at places of their own are all placed. -/
theorem placeAll_of_nodup {shader : String} {placed ds : List Declaration}
    (h : ((ds.reverse ++ placed).map Declaration.place).Nodup) :
    placeAll shader placed ds = .ok (ds.reverse ++ placed) := by
  induction ds generalizing placed with
  | nil => rfl
  | cons d ds ih =>
    rw [List.reverse_cons, List.append_assoc, List.singleton_append] at h ⊢
    have hrest := h
    rw [List.map_append, List.nodup_append, List.map_cons, List.nodup_cons] at hrest
    have hfree : placed.find? (fun e => e.place = d.place) = none := by
      simpa using hrest.2.1.1
    simp only [placeAll, hfree]
    exact ih h

/-- Resources that have elements and places of their own pass. -/
theorem checkAll_of_nodup {shader : String} {placed : List Declaration} {rs : List Resource}
    (hsizes : ∀ r ∈ rs, r.arraySize ≠ 0)
    (h : (((rs.flatMap Resource.declarations).reverse ++ placed).map Declaration.place).Nodup) :
    checkAll shader placed rs = .ok () := by
  induction rs generalizing placed with
  | nil => rfl
  | cons r rs ih =>
    obtain ⟨hsize, hsizes⟩ := List.forall_mem_cons.1 hsizes
    rw [List.flatMap_cons, List.reverse_append, List.append_assoc] at h
    have hfirst : ((r.declarations.reverse ++ placed).map Declaration.place).Nodup := by
      rw [List.map_append] at h
      exact (List.nodup_append.1 h).2.1
    rw [checkAll, if_neg hsize, placeAll_of_nodup hfirst]
    exact ih hsizes h

theorem arrange_of_sorted {rs : List Resource}
    (h : rs.Pairwise fun r s => rank r ≤ rank s) : arrange rs = rs :=
  List.mergeSort_of_pairwise (by simpa using h)

/-- Arranged resources are in the order of their ranks. -/
theorem sorted_arrange (rs : List Resource) :
    (arrange rs).Pairwise fun r s => rank r ≤ rank s := by
  have := @List.pairwise_mergeSort _ (fun r s => decide (rank r ≤ rank s))
    (fun _ _ _ h h' => by simp only [decide_eq_true_eq] at *; omega)
    (fun _ _ => by simp only [Bool.or_eq_true, decide_eq_true_eq]; omega) rs
  simpa [arrange] using this

/-- A list that was made has the resources in order, with places of their own. -/
theorem build_eq_ok {shader : String} {stage : Stage} {language : Language} {rs : List Resource}
    {l : ResourceList} (h : build shader stage language rs = .ok l) :
    l = { shader, stage, language, resources := arrange rs } ∧
      (∀ r ∈ rs, r.arraySize ≠ 0) ∧
      ((rs.flatMap Resource.declarations).map Declaration.place).Nodup := by
  obtain ⟨_, hcheck, hl⟩ := bind_eq_ok_iff.1 h
  obtain ⟨hsizes, hnodup⟩ := checkAll_eq_ok hcheck List.nodup_nil
  rw [List.append_nil, List.map_reverse, (List.reverse_perm _).nodup_iff] at hnodup
  exact ⟨(pure_eq_ok_iff.1 hl).symm, hsizes, hnodup⟩

/-- Resources that have elements and places of their own make a list. -/
theorem build_of_nodup {shader : String} {stage : Stage} {language : Language}
    {rs : List Resource} (hsizes : ∀ r ∈ rs, r.arraySize ≠ 0)
    (hnodup : ((rs.flatMap Resource.declarations).map Declaration.place).Nodup) :
    build shader stage language rs = .ok { shader, stage, language, resources := arrange rs } := by
  have hcheck : checkAll shader [] rs = .ok () := by
    refine checkAll_of_nodup hsizes ?_
    rwa [List.append_nil, List.map_reverse, (List.reverse_perm _).nodup_iff]
  rw [build, hcheck]
  rfl

/-- Resources make a list exactly if their arrays are not empty and each declaration has a place of
its own. -/
theorem exists_build_iff {shader : String} {stage : Stage} {language : Language}
    {rs : List Resource} :
    (∃ l, build shader stage language rs = .ok l) ↔
      (∀ r ∈ rs, r.arraySize ≠ 0) ∧
        ((rs.flatMap Resource.declarations).map Declaration.place).Nodup :=
  ⟨fun ⟨_, h⟩ => (build_eq_ok h).2, fun h => ⟨_, build_of_nodup h.1 h.2⟩⟩

/-- The resources of a built list build the same list again. -/
theorem build_again {shader : String} {stage : Stage} {language : Language} {rs : List Resource}
    {l : ResourceList} (h : build shader stage language rs = .ok l) :
    build shader stage language l.resources = .ok l := by
  obtain ⟨rfl, hsizes, hnodup⟩ := build_eq_ok h
  have hperm : (arrange rs).Perm rs := List.mergeSort_perm ..
  rw [build_of_nodup (fun r hr => hsizes r (hperm.mem_iff.1 hr))
    (((hperm.flatMap_right _).map _).nodup_iff.2 hnodup), arrange_of_sorted (sorted_arrange rs)]

/-- Resources that are in order already stay in it. -/
theorem build_of_sorted {shader : String} {stage : Stage} {language : Language}
    {rs : List Resource} (hcheck : checkAll shader [] rs = .ok ())
    (hsorted : rs.Pairwise fun r s => rank r ≤ rank s) :
    build shader stage language rs = .ok { shader, stage, language, resources := rs } := by
  rw [build, hcheck, arrange_of_sorted hsorted]
  rfl

/-- What `build` does not check itself is the order of elements. -/
theorem wellformed_build {shader : String} {stage : Stage} {language : Language}
    {rs : List Resource} {l : ResourceList} (h : build shader stage language rs = .ok l)
    (hrs : ∀ r ∈ rs, Element.Arranged r.arraySize r.place r.elements) : l.Wellformed := by
  obtain ⟨rfl, hsizes, hnodup⟩ := build_eq_ok h
  have hperm : (arrange rs).Perm rs := List.mergeSort_perm ..
  refine ⟨sorted_arrange rs, ?_, fun r hr => ?_⟩
  · exact ((hperm.flatMap_right _).map _).nodup_iff.2 hnodup
  · have hr := hperm.mem_iff.1 hr
    exact ⟨hsizes r hr, hrs r hr⟩

theorem Wellformed.withSuffixes {l : ResourceList} (h : l.Wellformed)
    (combined array : Option String) :
    ((l.withCombinedSamplerSuffix combined).withArraySuffix array).Wellformed :=
  ⟨h.sorted, h.nodup, h.sound⟩

end ResourceList

/-! ## Merged lists -/

theorem Element.mem_insert {e f : Element} {es : List Element} :
    f ∈ e.insert es ↔ f = e ∨ f ∈ es := by
  induction es with
  | nil => simp [Element.insert]
  | cons g es ih =>
    unfold Element.insert
    split
    · exact List.mem_cons
    · rw [List.mem_cons, ih, List.mem_cons]
      exact or_left_comm

/-- An element with a new index is inserted in order. -/
theorem Element.ordered_insert {e : Element} {es : List Element}
    (h : es.Pairwise fun e f => e.index < f.index) (hfresh : ∀ f ∈ es, f.index ≠ e.index) :
    (e.insert es).Pairwise fun e f => e.index < f.index := by
  induction es with
  | nil => simp [Element.insert]
  | cons g es ih =>
    obtain ⟨hg, hes⟩ := List.pairwise_cons.1 h
    obtain ⟨hne, hfresh⟩ := List.forall_mem_cons.1 hfresh
    unfold Element.insert
    split
    next hlt =>
      refine List.pairwise_cons.2 ⟨List.forall_mem_cons.2 ⟨hlt, fun f hf => ?_⟩, h⟩
      exact UInt32.lt_trans hlt (hg f hf)
    next hle =>
      refine List.pairwise_cons.2 ⟨fun f hf => ?_, ih hes hfresh⟩
      rcases Element.mem_insert.1 hf with rfl | hf
      · exact UInt32.lt_of_le_of_ne (UInt32.not_lt.1 hle) hne
      · exact hg f hf

/-- The lower of two elements comes first. -/
theorem Element.head?_insert (e : Element) (f : Element) (es : List Element) :
    (e.insert (f :: es)).head? = some (if e.index < f.index then e else f) := by
  unfold Element.insert
  split <;> rfl

namespace Merge

/-- An array of one element is arranged. -/
theorem arranged_start {r : Resource} {n : ElementName} (hr : r.elements = [])
    (hn : (n.index + 1).toNat = n.index.toNat + 1) :
    Element.Arranged (start r n).arraySize (start r n).place (start r n).elements := by
  simp only [start, hr, List.nil_append]
  exact ⟨by simp, by simp [Resource.asElement, hn], by simp [Resource.asElement, hn],
    by simp [Resource.asElement]⟩

/-- An arranged array stays so with one more element. -/
theorem arranged_extend {array r : Resource} {index : UInt32} (hne : array.elements ≠ [])
    (h : Element.Arranged array.arraySize array.place array.elements)
    (hindex : (index + 1).toNat = index.toNat + 1)
    (hfresh : ∀ e ∈ array.elements, e.index ≠ index) :
    Element.Arranged (extend array r index).arraySize (extend array r index).place
      (extend array r index).elements := by
  have hsize : (extend array r index).arraySize.toNat =
      max array.arraySize.toNat (index.toNat + 1) := by
    simp only [extend, ← hindex]
    exact UInt32.toNat_max ..
  refine ⟨Element.ordered_insert h.ordered hfresh, fun e he => ?_, fun _ => ?_, fun e he => ?_⟩
  · rw [hsize]
    rcases Element.mem_insert.1 he with rfl | he
    · exact Nat.lt_of_lt_of_le (Nat.lt_succ_self _) (Nat.le_max_right ..)
    · exact Nat.lt_of_lt_of_le (h.index_lt e he) (Nat.le_max_left ..)
  · rw [hsize]
    rcases Nat.le_total array.arraySize.toNat (index.toNat + 1) with hle | hle
    · exact ⟨r.asElement index, Element.mem_insert.2 (.inl rfl), (Nat.max_eq_right hle).symm⟩
    · obtain ⟨e, he, hreach⟩ := h.reaches hne
      exact ⟨e, Element.mem_insert.2 (.inr he), by rw [Nat.max_eq_left hle, hreach]⟩
  · obtain ⟨f, es, hes⟩ := List.exists_cons_of_ne_nil hne
    have hfirst : f.place = array.place := h.first f (by rw [hes]; rfl)
    simp only [extend, hes, Element.head?_insert, Option.mem_def, Option.some.injEq] at he ⊢
    subst he
    change (if index < f.index then r.asElement index else f).place =
      if index < f.index then _ else _
    split
    · rfl
    · exact hfirst

/-- A part on its way: a resource that is kept is arranged, an array besides has elements. -/
def Part.Arranged (p : Part) : Prop :=
  Element.Arranged p.resource.arraySize p.resource.place p.resource.elements ∧
    match p with
    | .kept _ => True
    | .array a => a.elements ≠ []

theorem arranged_join {shader : String} {stage : Stage} {array r a : Resource} {n : ElementName}
    (h : join shader stage array r n = .ok a) (harray : (Part.array array).Arranged)
    (hn : (n.index + 1).toNat = n.index.toNat + 1) : (Part.array a).Arranged := by
  unfold join at h
  split at h
  · cases h
  · split at h
    · cases h
    next hfresh =>
      cases h
      refine ⟨arranged_extend harray.2 harray.1 hn ?_, ?_⟩
      · simpa using hfresh
      · exact List.ne_nil_of_mem (Element.mem_insert.2 (.inl rfl))

theorem arranged_add {shader : String} {stage : Stage} {r : Resource} {n : ElementName}
    {parts out : List Part} (h : add shader stage r n parts = .ok out)
    (hparts : ∀ p ∈ parts, p.Arranged) (hr : r.elements = [])
    (hn : (n.index + 1).toNat = n.index.toNat + 1) : ∀ p ∈ out, p.Arranged := by
  induction parts generalizing out with
  | nil =>
    cases h
    simp only [List.mem_singleton, forall_eq]
    exact ⟨arranged_start hr hn, by simp [start]⟩
  | cons p parts ih =>
    obtain ⟨hp, hrest⟩ := List.forall_mem_cons.1 hparts
    cases p with
    | kept s =>
      obtain ⟨rest, hadd, hout⟩ := bind_eq_ok_iff.1 h
      cases hout
      exact List.forall_mem_cons.2 ⟨hp, ih hadd hrest⟩
    | array a =>
      unfold add at h
      split at h
      · obtain ⟨a', ha', hout⟩ := bind_eq_ok_iff.1 h
        cases hout
        exact List.forall_mem_cons.2 ⟨arranged_join ha' hp hn, hrest⟩
      · obtain ⟨rest, hadd, hout⟩ := bind_eq_ok_iff.1 h
        cases hout
        exact List.forall_mem_cons.2 ⟨hp, ih hadd hrest⟩

/-- A step of a merge keeps all arrays arranged. -/
theorem arranged_step {shader : String} {stage : Stage} {suffix : String} {parts out : List Part}
    {r : Resource} (h : step shader stage suffix parts r = .ok out)
    (hparts : ∀ p ∈ parts, p.Arranged) (hr : r.Sound) : ∀ p ∈ out, p.Arranged := by
  unfold step at h
  split at h
  next n hname =>
    unfold Resource.elementName? at hname
    split at hname
    · cases hname
    next hsingle =>
      simp only [not_or, Bool.not_eq_true, Bool.not_eq_false', List.isEmpty_iff] at hsingle
      exact arranged_add h hparts hsingle.2 (ElementName.toNat_index_succ hname)
  next =>
    cases h
    intro p hp
    rcases List.mem_append.1 hp with hp | hp
    · exact hparts p hp
    · rw [List.mem_singleton.1 hp]
      exact ⟨hr.arranged, trivial⟩

/-- A whole merge keeps all arrays arranged. -/
theorem arranged_foldlM {shader : String} {stage : Stage} {suffix : String} {rs : List Resource}
    {parts out : List Part} (h : rs.foldlM (step shader stage suffix) parts = .ok out)
    (hparts : ∀ p ∈ parts, p.Arranged) (hrs : ∀ r ∈ rs, r.Sound) : ∀ p ∈ out, p.Arranged := by
  induction rs generalizing parts with
  | nil =>
    cases h
    exact hparts
  | cons r rs ih =>
    obtain ⟨hr, hrs⟩ := List.forall_mem_cons.1 hrs
    rw [List.foldlM_cons] at h
    obtain ⟨parts', hstep, hrest⟩ := bind_eq_ok_iff.1 h
    exact ih hrest (arranged_step hstep hparts hr) hrs

end Merge

/-- A merge whose parts come out in order. -/
theorem ResourceList.merge_of_parts {shader : String} {stage : Stage} {language : Language}
    {rs : List Resource} {suffix : String} {parts : List Merge.Part}
    (hsuffix : suffix.isEmpty = false)
    (hparts : rs.foldlM (Merge.step shader stage suffix) [] = .ok parts)
    (hcheck : checkAll shader [] (parts.map Merge.Part.resource) = .ok ())
    (hsorted : (parts.map Merge.Part.resource).Pairwise fun r s => rank r ≤ rank s) :
    ({ shader, stage, language, resources := rs } : ResourceList).merge suffix =
      .ok { shader, stage, language, resources := parts.map Merge.Part.resource,
            arraySuffix := usable (some suffix) } := by
  rw [ResourceList.merge, if_neg (by simp [hsuffix])]
  exact bind_eq_ok_iff.2 ⟨parts, hparts, bind_eq_ok_iff.2 ⟨_, build_of_sorted hcheck hsorted, rfl⟩⟩

/-- A merge keeps a list well-formed. -/
theorem ResourceList.Wellformed.merge {l merged : ResourceList} {suffix : String}
    (hl : l.Wellformed) (h : l.merge suffix = .ok merged) : merged.Wellformed := by
  unfold ResourceList.merge at h
  split at h
  · cases h
    exact hl
  · obtain ⟨parts, hparts, h⟩ := bind_eq_ok_iff.1 h
    obtain ⟨built, hbuild, hmerged⟩ := bind_eq_ok_iff.1 h
    cases hmerged
    have hall := Merge.arranged_foldlM hparts (by simp) hl.sound
    refine (wellformed_build hbuild fun r hr => ?_).withSuffixes _ _
    obtain ⟨p, hp, rfl⟩ := List.mem_map.1 hr
    exact (hall p hp).1

end ShaderBind
