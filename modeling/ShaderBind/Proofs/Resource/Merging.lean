import ShaderBind.Proofs.Resource.Alike
import ShaderBind.Proofs.Resource.Wellformed
import Mathlib.Data.List.Induction
import Mathlib.Data.List.Nodup
import Mathlib.Data.List.Perm.Basic

/-!
# What a merge makes of a list

A resource that is a single variable named as an element is a candidate (`Resource.candidate?`). The
merge takes the resources one by one. What it has made at any time is told by the resources it has
taken (`Merge.Holds`): the others as they were, and for every array that has candidates one resource
which gathers them (`Merge.Gathers`). A step keeps this (`Holds.step`), and it fails only on a
candidate that does not go together with one taken before it (`Holds.exists_step`). So a merge
succeeds exactly if the candidates of each array go together, and neither a resource nor a
declaration is lost (`merge_exact`).
-/

namespace ShaderBind

/-! ## Candidates -/

/-- The array and the index that a single variable stands for. -/
def Resource.candidate? (r : Resource) (suffix : String) : Option ElementName :=
  if r.arraySize = 1 ∧ r.elements = [] then ElementName.parse? suffix r.semanticName else none

/-- Candidates are single resources whose name is that of an element. -/
theorem Resource.candidate?_eq_some_iff {r : Resource} {suffix : String} {n : ElementName} :
    r.candidate? suffix = some n ↔ r.arraySize = 1 ∧ r.elements = [] ∧
      ElementName.parse? suffix r.semanticName = some n := by
  simp [candidate?, and_assoc]

/-- The merge takes exactly the candidates for elements. -/
theorem Resource.elementName?_eq_candidate? {r : Resource} (h : r.arraySize ≠ 0)
    (suffix : String) : r.elementName? suffix = r.candidate? suffix := by
  have hsize : ¬ r.arraySize > 1 ↔ r.arraySize = 1 := by
    rw [Ne, ← UInt32.toNat_inj, UInt32.toNat_zero] at h
    rw [gt_iff_lt, UInt32.lt_iff_toNat_lt, ← UInt32.toNat_inj, UInt32.toNat_one]
    omega
  unfold elementName? candidate?
  by_cases hone : r.arraySize = 1 <;> by_cases helements : r.elements = [] <;>
    simp [hone, helements, hsize]

namespace Merge

/-- The candidates among resources, with what they stand for. -/
def candidates (suffix : String) (rs : List Resource) : List (Resource × ElementName) :=
  rs.filterMap fun r => (r.candidate? suffix).map fun n => (r, n)

/-- The candidates for one array. -/
def declared (suffix base : String) (rs : List Resource) : List (Resource × ElementName) :=
  (candidates suffix rs).filter fun c => c.2.base = base

/-- A candidate as an element. -/
def element (c : Resource × ElementName) : Element :=
  c.1.asElement c.2.index

/-- Candidates that make one array: they are of one kind, and no index comes twice. -/
def GoTogether (cs : List (Resource × ElementName)) : Prop :=
  cs.Pairwise fun c d => c.1.Compatible d.1 ∧ c.2.index ≠ d.2.index

section

variable {suffix : String} {rs : List Resource} {r : Resource} {n : ElementName}

theorem mem_candidates {c : Resource × ElementName} :
    c ∈ candidates suffix rs ↔ c.1 ∈ rs ∧ c.1.candidate? suffix = some c.2 := by
  obtain ⟨r, n⟩ := c
  simp [candidates]

/-- The elements declared of an array are the candidates with its base name. -/
theorem mem_declared {base : String} {c : Resource × ElementName} :
    c ∈ declared suffix base rs ↔
      c.1 ∈ rs ∧ c.1.candidate? suffix = some c.2 ∧ c.2.base = base := by
  rw [declared, List.mem_filter, mem_candidates, decide_eq_true_eq, and_assoc]

/-- A resource that is no candidate belongs to no array. -/
theorem declared_append_of_none (h : r.candidate? suffix = none) (base : String) :
    declared suffix base (rs ++ [r]) = declared suffix base rs := by
  simp [declared, candidates, h]

/-- A candidate is the last element of its own array. -/
theorem declared_append_self (h : r.candidate? suffix = some n) :
    declared suffix n.base (rs ++ [r]) = declared suffix n.base rs ++ [(r, n)] := by
  simp [declared, candidates, h]

/-- A candidate belongs to no other array. -/
theorem declared_append_of_ne (h : r.candidate? suffix = some n) {base : String}
    (hbase : base ≠ n.base) : declared suffix base (rs ++ [r]) = declared suffix base rs := by
  simp [declared, candidates, h, hbase.symm]

end

/-! ## One array -/

/-- An inserted element is one more element, wherever it goes. -/
theorem perm_insert (e : Element) (es : List Element) : (e.insert es).Perm (e :: es) := by
  induction es with
  | nil => exact .refl _
  | cons f es ih =>
    unfold Element.insert
    split
    · exact .refl _
    · exact (ih.cons f).trans (.swap e f es)

/-- An element joins an array if it goes with it and its index is new. -/
theorem join_eq_ok_iff {shader : String} {stage : Stage} {a r a' : Resource} {n : ElementName} :
    join shader stage a r n = .ok a' ↔
      a.Compatible r ∧ (∀ e ∈ a.elements, e.index ≠ n.index) ∧ extend a r n.index = a' := by
  have hkind : a.difference? r false = none ↔ a.Compatible r := by
    simp [Resource.difference?_eq_none_iff_compatible]
  unfold join
  split
  next hdifference =>
    have hother : ¬ a.Compatible r := fun h => by simp [hkind.2 h] at hdifference
    simp [hother]
  next hdifference =>
    have hsame := hkind.1 hdifference
    split
    next htaken =>
      have htaken : ¬ ∀ e ∈ a.elements, e.index ≠ n.index := by simpa using htaken
      simp [htaken]
    next hfresh =>
      have hfresh : ∀ e ∈ a.elements, e.index ≠ n.index := by simpa using hfresh
      exact ⟨fun h => ⟨hsame, hfresh, Except.ok.inj h⟩, fun h => congrArg _ h.2.2⟩

/-- An array that was put together from candidates: it is made of the first of them, has one element
for each, and its size and place are those of its elements. -/
structure Gathers (base : String) (cs : List (Resource × ElementName)) (a : Resource) : Prop where
  made_of_first : ∃ c ∈ cs.head?, ∃ arraySize place elements,
    a = { c.1 with name := base, altName := none, arraySize, place, elements }
  elements_perm : a.elements.Perm (cs.map element)
  arranged : Element.Arranged a.arraySize a.place a.elements

namespace Gathers

variable {base : String} {cs : List (Resource × ElementName)} {a r : Resource} {n : ElementName}

theorem ne_nil (h : Gathers base cs a) : cs ≠ [] := by
  obtain ⟨c, hc, -⟩ := h.made_of_first
  rintro rfl
  cases hc

theorem elements_ne_nil (h : Gathers base cs a) : a.elements ≠ [] := by
  intro hnil
  have hperm := h.elements_perm
  rw [hnil, List.nil_perm, List.map_eq_nil_iff] at hperm
  exact h.ne_nil hperm

theorem arraySize_ne_zero (h : Gathers base cs a) : a.arraySize ≠ 0 :=
  h.arranged.size_ne_zero h.elements_ne_nil

theorem name_eq (h : Gathers base cs a) : a.name = base := by
  obtain ⟨_, -, _, _, _, rfl⟩ := h.made_of_first
  rfl

theorem altName_eq (h : Gathers base cs a) : a.altName = none := by
  obtain ⟨_, -, _, _, _, rfl⟩ := h.made_of_first
  rfl

/-- An array goes with all elements that it was gathered from. -/
theorem compatible (h : Gathers base cs a) (hcs : GoTogether cs) :
    ∀ c ∈ cs, a.Compatible c.1 := by
  obtain ⟨first, hfirst, _, _, _, ha⟩ := h.made_of_first
  obtain ⟨rest, rfl⟩ : ∃ rest, cs = first :: rest := List.head?_eq_some_iff.1 hfirst
  have hkind : a.Compatible first.1 := by
    rw [ha]
    exact ⟨rfl, rfl, rfl, rfl⟩
  refine List.forall_mem_cons.2 ⟨hkind, fun c hc => ?_⟩
  exact hkind.trans ((List.pairwise_cons.1 hcs).1 c hc).1

/-- One more candidate goes together with those of an array exactly if the array takes it. -/
theorem goTogether_append_iff (h : Gathers base cs a) (hcs : GoTogether cs) :
    GoTogether (cs ++ [(r, n)]) ↔ a.Compatible r ∧ ∀ e ∈ a.elements, e.index ≠ n.index := by
  have hindex : (∀ e ∈ a.elements, e.index ≠ n.index) ↔ ∀ c ∈ cs, c.2.index ≠ n.index := by
    simp only [h.elements_perm.mem_iff, List.forall_mem_map]
    rfl
  have hkind : a.Compatible r ↔ ∀ c ∈ cs, c.1.Compatible r := by
    constructor
    · exact fun hr c hc => (h.compatible hcs c hc).symm.trans hr
    · intro hall
      obtain ⟨c, hc⟩ := List.exists_mem_of_ne_nil cs h.ne_nil
      exact (h.compatible hcs c hc).trans (hall c hc)
  rw [hindex, hkind, ← forall₂_and]
  simp only [GoTogether, List.pairwise_append, List.pairwise_singleton, List.mem_singleton,
    forall_eq, true_and]
  exact and_iff_right hcs

/-- An array with one more element gathers one more declaration. -/
theorem extend (h : Gathers base cs a) (hfresh : ∀ e ∈ a.elements, e.index ≠ n.index)
    (hn : (n.index + 1).toNat = n.index.toNat + 1) :
    Gathers base (cs ++ [(r, n)]) (extend a r n.index) where
  made_of_first := by
    have hhead : (cs ++ [(r, n)]).head? = cs.head? := List.head?_append_of_ne_nil cs h.ne_nil
    obtain ⟨c, hc, _, _, _, rfl⟩ := h.made_of_first
    exact ⟨c, hhead ▸ hc, _, _, _, rfl⟩
  elements_perm := by
    refine (perm_insert _ _).trans ?_
    rw [List.map_append]
    exact (h.elements_perm.cons _).trans (List.perm_append_singleton _ _).symm
  arranged := arranged_extend h.elements_ne_nil h.arranged hn hfresh

end Gathers

/-- A first element makes an array of its own. -/
theorem gathers_start {r : Resource} {n : ElementName} (hr : r.elements = [])
    (hn : (n.index + 1).toNat = n.index.toNat + 1) : Gathers n.base [(r, n)] (start r n) where
  made_of_first := ⟨(r, n), rfl, _, _, _, rfl⟩
  elements_perm := by
    simp only [start, hr]
    exact .refl _
  arranged := arranged_start hr hn

/-- The first element keeps its declaration. -/
theorem declarations_start {r : Resource} (hr : r.elements = []) (n : ElementName) :
    (start r n).declarations = r.declarations := by
  simp [Resource.declarations, start, hr, Resource.asElement]

/-- A further element adds its declaration and changes no other. -/
theorem perm_declarations_extend {a r : Resource} (ha : a.elements ≠ []) (hr : r.elements = [])
    (index : UInt32) : (extend a r index).declarations.Perm (r.declarations ++ a.declarations) := by
  have hperm : (extend a r index).elements.Perm (r.asElement index :: a.elements) :=
    perm_insert (r.asElement index) a.elements
  have hne : (extend a r index).elements ≠ [] := fun hnil => by simp [hnil] at hperm
  simp only [Resource.declarations, List.isEmpty_iff, hr, ha, hne, if_true, if_false,
    List.singleton_append]
  exact hperm.map _

/-! ## The parts -/

/-- The resources that were taken over. -/
def kept (parts : List Part) : List Resource :=
  parts.filterMap fun
    | .kept r => some r
    | .array _ => none

/-- The arrays that were put together. -/
def arrays (parts : List Part) : List Resource :=
  parts.filterMap fun
    | .kept _ => none
    | .array a => some a

/-- Parts are what was kept and the arrays, in some order. -/
theorem perm_resources (parts : List Part) :
    (parts.map Part.resource).Perm (kept parts ++ arrays parts) := by
  induction parts with
  | nil => exact .refl _
  | cons p parts ih =>
    cases p with
    | kept r => exact ih.cons r
    | array a => exact (ih.cons a).trans List.perm_middle.symm

/-- What one more element does to the parts: it begins an array, or joins one that is there. -/
inductive Added (shader : String) (stage : Stage) (r : Resource) (n : ElementName)
    (parts out : List Part) : Prop
  | new (hname : n.base ∉ (arrays parts).map Resource.name) (hkept : kept out = kept parts)
      (harrays : (arrays out).Perm (start r n :: arrays parts))
  | joined {a a' : Resource} {others : List Resource} (hparts : (arrays parts).Perm (a :: others))
      (hname : a.name = n.base) (hjoin : join shader stage a r n = .ok a')
      (hkept : kept out = kept parts) (harrays : (arrays out).Perm (a' :: others))

section

variable {shader : String} {stage : Stage} {r : Resource} {n : ElementName} {parts out : List Part}

/-- An element goes past a resource that was kept. -/
theorem Added.kept (h : Added shader stage r n parts out) (s : Resource) :
    Added shader stage r n (.kept s :: parts) (.kept s :: out) := by
  cases h with
  | new hname hkept harrays => exact .new hname (congrArg (s :: ·) hkept) harrays
  | joined hparts hname hjoin hkept harrays =>
    exact .joined hparts hname hjoin (congrArg (s :: ·) hkept) harrays

/-- An element goes past the array of another name. -/
theorem Added.array (h : Added shader stage r n parts out) {a : Resource} (ha : a.name ≠ n.base) :
    Added shader stage r n (.array a :: parts) (.array a :: out) := by
  cases h with
  | new hname hkept harrays =>
    refine .new ?_ hkept ((harrays.cons a).trans (.swap _ a _))
    exact List.not_mem_cons_of_ne_of_not_mem ha.symm hname
  | joined hparts hname hjoin hkept harrays =>
    exact .joined ((hparts.cons a).trans (.swap _ a _)) hname hjoin hkept
      ((harrays.cons a).trans (.swap _ a _))

/-- An element that was added stands in a new array or in the one of its name. -/
theorem add_eq_ok (h : add shader stage r n parts = .ok out) :
    Added shader stage r n parts out := by
  induction parts generalizing out with
  | nil =>
    cases h
    exact .new (by simp [arrays]) rfl (.refl _)
  | cons p parts ih =>
    cases p with
    | kept s =>
      obtain ⟨rest, hadd, hout⟩ := bind_eq_ok_iff.1 h
      cases hout
      exact (ih hadd).kept s
    | array a =>
      unfold add at h
      split at h
      next hname =>
        obtain ⟨a', ha', hout⟩ := bind_eq_ok_iff.1 h
        cases hout
        exact .joined (.refl _) hname ha' rfl (.refl _)
      next hname =>
        obtain ⟨rest, hadd, hout⟩ := bind_eq_ok_iff.1 h
        cases hout
        exact (ih hadd).array hname

/-- An element is taken if the array of its name takes it. -/
theorem exists_add
    (h : ∀ a ∈ arrays parts, a.name = n.base → ∃ a', join shader stage a r n = .ok a') :
    ∃ out, add shader stage r n parts = .ok out := by
  induction parts with
  | nil => exact ⟨_, rfl⟩
  | cons p parts ih =>
    cases p with
    | kept s =>
      obtain ⟨out, hout⟩ := ih h
      exact ⟨_, bind_eq_ok_iff.2 ⟨out, hout, rfl⟩⟩
    | array a =>
      obtain ⟨ha, hrest⟩ := List.forall_mem_cons.1 (show ∀ b ∈ a :: arrays parts, _ from h)
      unfold add
      split
      next hname =>
        obtain ⟨a', ha'⟩ := ha hname
        exact ⟨_, bind_eq_ok_iff.2 ⟨a', ha', rfl⟩⟩
      next =>
        obtain ⟨out, hout⟩ := ih hrest
        exact ⟨_, bind_eq_ok_iff.2 ⟨out, hout, rfl⟩⟩

end

/-- What the parts are when the resources `rs` have been taken. -/
structure Holds (suffix : String) (rs : List Resource) (parts : List Part) : Prop where
  kept_eq : kept parts = rs.filter fun r => (r.candidate? suffix).isNone
  nodup : ((arrays parts).map Resource.name).Nodup
  mem_names : ∀ c ∈ candidates suffix rs, c.2.base ∈ (arrays parts).map Resource.name
  gathers : ∀ a ∈ arrays parts, Gathers a.name (declared suffix a.name rs) a
  together : ∀ base, GoTogether (declared suffix base rs)
  declarations_perm : ((kept parts ++ arrays parts).flatMap Resource.declarations).Perm
    (rs.flatMap Resource.declarations)

namespace Holds

variable {shader : String} {stage : Stage} {suffix : String} {rs : List Resource} {r : Resource}
  {n : ElementName} {parts out : List Part}

theorem nil : Holds suffix [] [] :=
  ⟨rfl, .nil, by simp [candidates], by simp [arrays], fun _ => .nil, .nil⟩

/-- A name that has no array has no elements. -/
theorem declared_eq_nil (h : Holds suffix rs parts) {base : String}
    (hbase : base ∉ (arrays parts).map Resource.name) : declared suffix base rs = [] := by
  rw [declared, List.filter_eq_nil_iff]
  intro c hc heq
  exact hbase (of_decide_eq_true heq ▸ h.mem_names c hc)

/-- A resource that is no candidate is kept. -/
theorem step_kept (h : Holds suffix rs parts) (hr : r.candidate? suffix = none) :
    Holds suffix (rs ++ [r]) (parts ++ [.kept r]) where
  kept_eq := by
    rw [List.filter_append, ← h.kept_eq]
    simp [kept, hr]
  nodup := by simpa [arrays] using h.nodup
  mem_names := by simpa [arrays, candidates, hr] using h.mem_names
  gathers := by simpa [arrays, declared_append_of_none hr] using h.gathers
  together := by simpa [declared_append_of_none hr] using h.together
  declarations_perm := by
    have hkept : kept (parts ++ [.kept r]) = kept parts ++ [r] := by simp [kept]
    have harrays : arrays (parts ++ [.kept r]) = arrays parts := by simp [arrays]
    rw [hkept, harrays, List.flatMap_append, List.flatMap_append, List.flatMap_append,
      List.append_assoc]
    refine (List.perm_append_comm.append_left _).trans ?_
    rw [← List.append_assoc, ← List.flatMap_append]
    exact h.declarations_perm.append_right _

open scoped List in
/-- A candidate is taken into an array, and the arrays of other names stay. -/
theorem step_candidate {a : Resource} {others : List Resource} (h : Holds suffix rs parts)
    (hr : r.candidate? suffix = some n) (hkept : kept out = kept parts)
    (harrays : arrays out ~ a :: others)
    (hothers : others ~ (arrays parts).filter fun b => b.name ≠ n.base)
    (hgathers : Gathers n.base (declared suffix n.base rs ++ [(r, n)]) a)
    (htogether : GoTogether (declared suffix n.base rs ++ [(r, n)]))
    (hdeclarations : (a :: others).flatMap Resource.declarations ~
      r.declarations ++ (arrays parts).flatMap Resource.declarations) :
    Holds suffix (rs ++ [r]) out := by
  have hmem : ∀ b, b ∈ others ↔ b ∈ arrays parts ∧ b.name ≠ n.base := by
    intro b
    rw [hothers.mem_iff, List.mem_filter, decide_eq_true_eq]
  have hnames : (arrays out).map Resource.name ~ n.base :: others.map Resource.name := by
    rw [← hgathers.name_eq]
    exact harrays.map Resource.name
  refine ⟨?_, ?_, fun c hc => ?_, ?_, fun base => ?_, ?_⟩
  · rw [List.filter_append, ← h.kept_eq, hkept]
    simp [hr]
  · rw [hnames.nodup_iff, List.nodup_cons, (hothers.map Resource.name).nodup_iff]
    refine ⟨fun hname => ?_, h.nodup.sublist (List.filter_sublist.map _)⟩
    obtain ⟨b, hb, hname⟩ := List.mem_map.1 hname
    exact ((hmem b).1 hb).2 hname
  · rw [hnames.mem_iff, List.mem_cons, or_iff_not_imp_left]
    intro hbase
    have hc : c ∈ candidates suffix rs := by
      rw [candidates, List.filterMap_append, List.mem_append] at hc
      refine hc.resolve_right fun hlast => hbase ?_
      rw [List.filterMap_cons, hr, Option.map_some] at hlast
      rw [List.mem_singleton.1 hlast]
    obtain ⟨b, hb, hname⟩ := List.mem_map.1 (h.mem_names c hc)
    exact hname ▸ List.mem_map_of_mem ((hmem b).2 ⟨hb, hname ▸ hbase⟩)
  · simp only [harrays.mem_iff, List.forall_mem_cons]
    refine ⟨?_, fun b hb => ?_⟩
    · rw [hgathers.name_eq, declared_append_self hr]
      exact hgathers
    · obtain ⟨hb, hname⟩ := (hmem b).1 hb
      rw [declared_append_of_ne hr hname]
      exact h.gathers b hb
  · by_cases hbase : base = n.base
    · rw [hbase, declared_append_self hr]
      exact htogether
    · rw [declared_append_of_ne hr hbase]
      exact h.together base
  · have hold := h.declarations_perm
    rw [List.flatMap_append] at hold
    rw [hkept, List.flatMap_append, List.flatMap_append, List.flatMap_singleton]
    calc (kept parts).flatMap Resource.declarations ++ (arrays out).flatMap Resource.declarations
      _ ~ (kept parts).flatMap Resource.declarations ++
          (r.declarations ++ (arrays parts).flatMap Resource.declarations) :=
        ((harrays.flatMap_right _).trans hdeclarations).append_left _
      _ ~ r.declarations ++ ((kept parts).flatMap Resource.declarations ++
          (arrays parts).flatMap Resource.declarations) := List.perm_append_comm_assoc _ _ _
      _ ~ r.declarations ++ rs.flatMap Resource.declarations := hold.append_left _
      _ ~ rs.flatMap Resource.declarations ++ r.declarations := List.perm_append_comm

/-- One resource more: what the parts hold stays true. -/
theorem step (h : Holds suffix rs parts) (hr : r.arraySize ≠ 0)
    (hstep : step shader stage suffix parts r = .ok out) : Holds suffix (rs ++ [r]) out := by
  unfold Merge.step at hstep
  rw [Resource.elementName?_eq_candidate? hr] at hstep
  split at hstep
  next n hcandidate =>
    obtain ⟨-, hr, hparse⟩ := Resource.candidate?_eq_some_iff.1 hcandidate
    have hn := ElementName.toNat_index_succ hparse
    cases add_eq_ok hstep with
    | new hname hkept harrays =>
      have hother : ∀ b ∈ arrays parts, b.name ≠ n.base :=
        fun b hb heq => hname (heq ▸ List.mem_map_of_mem hb)
      have hnone : declared suffix n.base rs = [] := h.declared_eq_nil hname
      refine h.step_candidate hcandidate hkept harrays ?_ ?_ ?_ ?_
      · rw [List.filter_eq_self.2 (by simpa using hother)]
      · rw [hnone]
        exact gathers_start hr hn
      · rw [hnone]
        exact List.pairwise_singleton _ _
      · rw [List.flatMap_cons, declarations_start hr]
    | @joined a a' others hparts hname hjoin hkept harrays =>
      obtain ⟨hkind, hfresh, rfl⟩ := join_eq_ok_iff.1 hjoin
      have hgathers := h.gathers a (hparts.mem_iff.2 List.mem_cons_self)
      rw [hname] at hgathers
      have hother : ∀ b ∈ others, b.name ≠ n.base := by
        have hnodup := (hparts.map Resource.name).nodup_iff.1 h.nodup
        intro b hb heq
        exact (List.nodup_cons.1 hnodup).1 (hname.trans heq.symm ▸ List.mem_map_of_mem hb)
      refine h.step_candidate hcandidate hkept harrays ?_ (hgathers.extend hfresh hn)
        ((hgathers.goTogether_append_iff (h.together _)).2 ⟨hkind, hfresh⟩) ?_
      · refine .trans (.of_eq ?_) (hparts.symm.filter _)
        rw [List.filter_cons_of_neg (by simp [hname]),
          List.filter_eq_self.2 (by simpa using hother)]
      · rw [List.flatMap_cons]
        refine ((perm_declarations_extend hgathers.elements_ne_nil hr _).append_right _).trans ?_
        rw [List.append_assoc, ← List.flatMap_cons]
        exact (hparts.symm.flatMap_right _).append_left _
  next hcandidate =>
    cases hstep
    exact h.step_kept hcandidate

/-- A step fails only on a candidate that does not go together with the others of its array. -/
theorem exists_step (h : Holds suffix rs parts) (hr : r.arraySize ≠ 0)
    (htogether : ∀ base, GoTogether (declared suffix base (rs ++ [r]))) :
    ∃ out, Merge.step shader stage suffix parts r = .ok out := by
  unfold Merge.step
  rw [Resource.elementName?_eq_candidate? hr]
  split
  next n hcandidate =>
    refine exists_add fun a ha hname => ⟨extend a r n.index, join_eq_ok_iff.2 ?_⟩
    have hgathers := h.gathers a ha
    have hmore := htogether n.base
    rw [declared_append_self hcandidate, ← hname] at hmore
    obtain ⟨hkind, hfresh⟩ := (hgathers.goTogether_append_iff (h.together _)).1 hmore
    exact ⟨hkind, hfresh, rfl⟩
  next => exact ⟨_, rfl⟩

end Holds

/-! ## The run -/

section

variable {shader : String} {stage : Stage} {suffix : String} {rs : List Resource}

/-- After all resources the parts hold all elements of every name. -/
theorem holds_of_foldlM {parts : List Part} (hrs : ∀ r ∈ rs, r.arraySize ≠ 0)
    (h : rs.foldlM (step shader stage suffix) [] = .ok parts) : Holds suffix rs parts := by
  induction rs using List.reverseRecOn generalizing parts with
  | nil =>
    cases h
    exact .nil
  | append_singleton rs r ih =>
    simp only [List.foldlM_append, List.foldlM_cons, List.foldlM_nil, bind_pure] at h
    obtain ⟨before, hbefore, hstep⟩ := bind_eq_ok_iff.1 h
    obtain ⟨hrs, hr⟩ := List.forall_mem_append.1 hrs
    exact (ih hrs hbefore).step (hr r (List.mem_singleton_self r)) hstep

/-- Elements that go together are merged. -/
theorem exists_foldlM (hrs : ∀ r ∈ rs, r.arraySize ≠ 0)
    (h : ∀ base, GoTogether (declared suffix base rs)) :
    ∃ parts, rs.foldlM (step shader stage suffix) [] = .ok parts := by
  induction rs using List.reverseRecOn with
  | nil => exact ⟨[], rfl⟩
  | append_singleton rs r ih =>
    obtain ⟨hrs, hr⟩ := List.forall_mem_append.1 hrs
    have hsublist : ∀ base,
        (declared suffix base rs).Sublist (declared suffix base (rs ++ [r])) := by
      intro base
      rw [declared, declared, candidates, candidates, List.filterMap_append, List.filter_append]
      exact List.sublist_append_left _ _
    obtain ⟨before, hbefore⟩ := ih hrs fun base => (h base).sublist (hsublist base)
    obtain ⟨out, hout⟩ : ∃ out, step shader stage suffix before r = .ok out :=
      (holds_of_foldlM hrs hbefore).exists_step (hr r (List.mem_singleton_self r)) h
    simp only [List.foldlM_append, List.foldlM_cons, List.foldlM_nil, bind_pure]
    exact ⟨out, bind_eq_ok_iff.2 ⟨before, hbefore, hout⟩⟩

end

/-- What a merge makes of a list: beside the resources that are no candidates there are arrays, one
for each name that candidates have in common. -/
structure Merged (suffix : String) (l : ResourceList) (arrays : List Resource)
    (merged : ResourceList) : Prop where
  shader_eq : merged.shader = l.shader
  arraySuffix_eq : merged.arraySuffix = some suffix
  resources_perm : merged.resources.Perm
    (l.resources.filter (fun r => (r.candidate? suffix).isNone) ++ arrays)
  nodup : (arrays.map Resource.name).Nodup
  mem_names : ∀ base, base ∈ arrays.map Resource.name ↔
    ∃ r ∈ l.resources, ∃ n, r.candidate? suffix = some n ∧ n.base = base
  gathers : ∀ a ∈ arrays, Gathers a.name (declared suffix a.name l.resources) a
  together : ∀ base, GoTogether (declared suffix base l.resources)
  declarations_perm : merged.declarations.Perm l.declarations

section

variable {suffix : String} {l merged : ResourceList}

/-- The merged list has the resources that are no elements, and the arrays. -/
theorem Merged.mem_resources {arrays : List Resource} (h : Merged suffix l arrays merged)
    {r : Resource} :
    r ∈ merged.resources ↔ (r ∈ l.resources ∧ r.candidate? suffix = none) ∨ r ∈ arrays := by
  rw [h.resources_perm.mem_iff, List.mem_append, List.mem_filter, Option.isNone_iff_eq_none]

/-- The elements of the arrays are the candidates. -/
theorem Merged.exists_element_iff {arrays : List Resource} (h : Merged suffix l arrays merged)
    {base : String} {e : Element} :
    (∃ a ∈ arrays, a.name = base ∧ e ∈ a.elements) ↔
      ∃ r ∈ l.resources, ∃ n, r.candidate? suffix = some n ∧ n.base = base ∧
        e = r.asElement n.index := by
  constructor
  · rintro ⟨a, ha, rfl, he⟩
    rw [(h.gathers a ha).elements_perm.mem_iff] at he
    obtain ⟨c, hc, rfl⟩ := List.mem_map.1 he
    obtain ⟨hmem, hcandidate, hbase⟩ := mem_declared.1 hc
    exact ⟨c.1, hmem, c.2, hcandidate, hbase, rfl⟩
  · rintro ⟨r, hr, n, hcandidate, hbase, rfl⟩
    obtain ⟨a, ha, hname⟩ := List.mem_map.1 ((h.mem_names base).2 ⟨r, hr, n, hcandidate, hbase⟩)
    refine ⟨a, ha, hname, (h.gathers a ha).elements_perm.mem_iff.2 ?_⟩
    exact List.mem_map.2 ⟨(r, n), mem_declared.2 ⟨hr, hcandidate, hbase.trans hname.symm⟩, rfl⟩

/-- A merge that succeeds gives a merged list. -/
theorem merged_of_merge (hsizes : ∀ r ∈ l.resources, r.arraySize ≠ 0) (hsuffix : suffix ≠ "")
    (h : l.merge suffix = .ok merged) : ∃ arrays, Merged suffix l arrays merged := by
  rw [ResourceList.merge, if_neg (by simpa using hsuffix)] at h
  obtain ⟨parts, hparts, h⟩ := bind_eq_ok_iff.1 h
  obtain ⟨built, hbuild, h⟩ := bind_eq_ok_iff.1 h
  cases h
  obtain ⟨rfl, -⟩ := ResourceList.build_eq_ok hbuild
  have hholds := holds_of_foldlM hsizes hparts
  have hperm : (ResourceList.arrange (parts.map Part.resource)).Perm (kept parts ++ arrays parts) :=
    (List.mergeSort_perm ..).trans (perm_resources parts)
  refine ⟨arrays parts, rfl, ?_, hholds.kept_eq ▸ hperm, hholds.nodup, fun base => ⟨?_, ?_⟩,
    hholds.gathers, hholds.together, ?_⟩
  · simp [ResourceList.withArraySuffix, ResourceList.usable, Option.filter, hsuffix]
  · rintro hbase
    obtain ⟨a, ha, rfl⟩ := List.mem_map.1 hbase
    obtain ⟨c, hc⟩ := List.exists_mem_of_ne_nil _ (hholds.gathers a ha).ne_nil
    obtain ⟨hmem, hcandidate, hbase⟩ := mem_declared.1 hc
    exact ⟨c.1, hmem, c.2, hcandidate, hbase⟩
  · rintro ⟨r, hr, n, hcandidate, rfl⟩
    exact hholds.mem_names (r, n) (mem_candidates.2 ⟨hr, hcandidate⟩)
  · exact (hperm.flatMap_right _).trans hholds.declarations_perm

/-- Candidates that go together are merged: the list can always be built again. -/
theorem exists_merge (hsizes : ∀ r ∈ l.resources, r.arraySize ≠ 0)
    (hnodup : (l.declarations.map Declaration.place).Nodup)
    (h : ∀ base, GoTogether (declared suffix base l.resources)) :
    ∃ merged, l.merge suffix = .ok merged := by
  unfold ResourceList.merge
  split
  · exact ⟨l, rfl⟩
  obtain ⟨parts, hparts⟩ : ∃ parts, l.resources.foldlM (step l.shader l.stage suffix) [] =
      .ok parts := exists_foldlM hsizes h
  have hholds := holds_of_foldlM hsizes hparts
  have hperm := perm_resources parts
  have hbuild : ∃ built, ResourceList.build l.shader l.stage l.language
      (parts.map Part.resource) = .ok built := by
    refine ResourceList.exists_build_iff.2 ⟨fun r hr => ?_, ?_⟩
    · rcases List.mem_append.1 (hperm.mem_iff.1 hr) with hr | hr
      · rw [hholds.kept_eq] at hr
        exact hsizes r (List.mem_of_mem_filter hr)
      · exact (hholds.gathers r hr).arraySize_ne_zero
    · have hdeclarations := (hperm.flatMap_right _).trans hholds.declarations_perm
      exact (hdeclarations.map Declaration.place).nodup_iff.2 hnodup
  obtain ⟨built, hbuild⟩ := hbuild
  exact ⟨_, bind_eq_ok_iff.2 ⟨parts, hparts, bind_eq_ok_iff.2 ⟨built, hbuild, rfl⟩⟩⟩

end

end Merge

namespace ResourceList

/-- Merging is exact and loses nothing. It succeeds exactly if the candidates for each array are of
one kind and have different indices. Then the list holds the other resources as they were, and for
each array that has candidates exactly one resource: under the array's name alone, with an element
for each candidate in order of the indices, one larger than the largest, at the place of the lowest,
and otherwise like its first candidate. The declarations are the same. -/
theorem merge_exact {shader : String} {stage : Stage} {language : Language} {rs : List Resource}
    {l : ResourceList} {suffix : String} (hl : build shader stage language rs = .ok l)
    (hsuffix : suffix ≠ "") :
    ((∃ merged, l.merge suffix = .ok merged) ↔
        ∀ base, Merge.GoTogether (Merge.declared suffix base l.resources)) ∧
      ∀ merged, l.merge suffix = .ok merged → ∃ arrays : List Resource,
        merged.resources.Perm
            (l.resources.filter (fun r => (r.candidate? suffix).isNone) ++ arrays) ∧
          (arrays.map Resource.name).Nodup ∧
          (∀ base, base ∈ arrays.map Resource.name ↔
            ∃ r ∈ l.resources, ∃ n, r.candidate? suffix = some n ∧ n.base = base) ∧
          (∀ a ∈ arrays, a.altName = none ∧
            a.elements.Perm ((Merge.declared suffix a.name l.resources).map Merge.element) ∧
            (a.elements.Pairwise fun e f => e.index < f.index) ∧
            (∃ e ∈ a.elements, (∀ f ∈ a.elements, f.index ≤ e.index) ∧
              a.arraySize.toNat = e.index.toNat + 1) ∧
            (∃ e ∈ a.elements.head?, (∀ f ∈ a.elements, e.index ≤ f.index) ∧ a.place = e.place) ∧
            ∃ c ∈ (Merge.declared suffix a.name l.resources).head?, ∃ arraySize place elements,
              a = { c.1 with name := a.name, altName := none, arraySize, place, elements }) ∧
          merged.declarations.Perm l.declarations := by
  obtain ⟨-, hsizes, hnodup⟩ := build_eq_ok (build_again hl)
  refine ⟨⟨?_, Merge.exists_merge hsizes hnodup⟩, fun merged hmerge => ?_⟩
  · rintro ⟨merged, hmerge⟩
    obtain ⟨_, hmerged⟩ := Merge.merged_of_merge hsizes hsuffix hmerge
    exact hmerged.together
  · obtain ⟨arrays, hmerged⟩ := Merge.merged_of_merge hsizes hsuffix hmerge
    refine ⟨arrays, hmerged.resources_perm, hmerged.nodup, hmerged.mem_names, fun a ha => ?_,
      hmerged.declarations_perm⟩
    have hgathers := hmerged.gathers a ha
    have hne := hgathers.elements_ne_nil
    exact ⟨hgathers.altName_eq, hgathers.elements_perm, hgathers.arranged.ordered,
      hgathers.arranged.exists_largest hne, hgathers.arranged.exists_lowest hne,
      hgathers.made_of_first⟩

/-- Candidates for two arrays, between and around other resources. -/
def scattered : ResourceList where
  shader := "s"
  stage := .pixel
  language := .hlsl
  resources :=
    [.ofCategory "u" .uniformBuffer ⟨0, 7⟩, .ofCategory "t_2" .sampledTexture ⟨0, 1⟩,
      .ofCategory "v_1" .sampledTexture ⟨0, 5⟩, .ofCategory "t_0" .sampledTexture ⟨0, 3⟩,
      .ofCategory "s" .sampler ⟨0, 9⟩]

/-- The same resources with two arrays: one lacks an element and is bound backwards, the other has
only its last. -/
def gapped : ResourceList where
  shader := "s"
  stage := .pixel
  language := .hlsl
  resources :=
    [.ofCategory "u" .uniformBuffer ⟨0, 7⟩,
      { Resource.ofCategory "t" .sampledTexture ⟨0, 3⟩ with
        arraySize := 3, elements := [⟨"t_0", 0, ⟨0, 3⟩⟩, ⟨"t_2", 2, ⟨0, 1⟩⟩] },
      { Resource.ofCategory "v" .sampledTexture ⟨0, 5⟩ with
        arraySize := 2, elements := [⟨"v_1", 1, ⟨0, 5⟩⟩] },
      .ofCategory "s" .sampler ⟨0, 9⟩]
  arraySuffix := some "_"

/-- The scattered resources make a list. -/
theorem build_scattered :
    build scattered.shader scattered.stage scattered.language scattered.resources =
      .ok scattered :=
  build_of_sorted rfl (by decide)

/-- The elements of the scattered list become arrays with gaps. -/
theorem merge_scattered : scattered.merge "_" = .ok gapped := by
  have hnames : scattered.resources.map (Resource.elementName? · "_") =
      [none, some ⟨"t", 2⟩, some ⟨"v", 1⟩, some ⟨"t", 0⟩, none] := by
    decide +kernel
  have hparts : scattered.resources.foldlM (Merge.step "s" .pixel "_") [] = .ok
      [.kept gapped.resources[0], .array gapped.resources[1], .array gapped.resources[2],
        .kept gapped.resources[3]] := by
    simp only [scattered, List.map_cons, List.cons.injEq] at hnames
    simp only [scattered, List.foldlM_cons, Merge.step, hnames]
    rfl
  exact merge_of_parts rfl hparts rfl (by decide)

/-- Elements out of order and with a gap between them, merged. -/
theorem merge_exact_scattered :
    scattered.merge "_" = .ok gapped ∧
      (∀ base, Merge.GoTogether (Merge.declared "_" base scattered.resources)) ∧
      gapped.declarations.Perm scattered.declarations := by
  obtain ⟨hiff, hmerged⟩ := merge_exact build_scattered (show "_" ≠ "" by decide)
  obtain ⟨_, -, -, -, -, hdeclarations⟩ := hmerged gapped merge_scattered
  exact ⟨merge_scattered, hiff.1 ⟨gapped, merge_scattered⟩, hdeclarations⟩

end ResourceList

end ShaderBind
