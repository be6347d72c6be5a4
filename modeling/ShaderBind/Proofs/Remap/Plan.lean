import ShaderBind.Proofs.Resource.Wellformed
import ShaderBind.Remap.Plan
import Mathlib.Data.List.Forall2

/-!
# What a plan says

A plan that succeeds names the declarations of its list in order, with their old and their new
places, and the new list has them at the new places in the same order (`plan_eq_ok`). The new place
of a declaration is counted from the entry that its resource resolves to: the slot the resource was
found at, and the index of the declaration in the resource (`Resource.slots`). Plans keep lists well
formed, so every list that comes from building, merging and planning is (`Reachable.wellformed`).
-/

namespace ShaderBind

/-- The declarations of a resource, each with its index in it; a single one has index 0. -/
def Resource.slots (r : Resource) : List (Declaration × UInt32) :=
  if r.elements.isEmpty then [(⟨r.name, r.place⟩, 0)]
  else r.elements.map fun e => (⟨e.name, e.place⟩, e.index)

/-- The slots of a resource are its declarations in order. -/
theorem Resource.map_fst_slots (r : Resource) : r.slots.map Prod.fst = r.declarations := by
  unfold Resource.slots Resource.declarations
  split
  · rfl
  · rw [List.map_map]
    rfl

theorem Resource.slots_ne_nil (r : Resource) : r.slots ≠ [] := by
  unfold Resource.slots
  split
  · exact List.cons_ne_nil _ _
  next hne => simpa using hne

/-- Slots are below the size of the array. -/
theorem Resource.index_lt_of_mem_slots {r : Resource} (h : r.Sound) {s : Declaration × UInt32}
    (hs : s ∈ r.slots) : s.2.toNat < r.arraySize.toNat := by
  unfold Resource.slots at hs
  split at hs
  · rw [List.mem_singleton.1 hs]
    exact Nat.pos_of_ne_zero fun hzero => h.arraySize_ne_zero (UInt32.toNat_inj.1 hzero)
  · obtain ⟨e, he, rfl⟩ := List.mem_map.1 hs
    exact h.arranged.index_lt e he

/-- The declaration of a planned binding before the move. -/
def PlannedBinding.before (p : PlannedBinding) : Declaration := ⟨p.name, p.source⟩

/-- The declaration of a planned binding after the move. -/
def PlannedBinding.after (p : PlannedBinding) : Declaration := ⟨p.name, p.target⟩

namespace Remapper

/-! ## One resource -/

/-- An element and the same one, moved to its slot behind `base`. -/
structure MovedElement (base : Coord) (e e' : Element) : Prop where
  name_eq : e'.name = e.name
  index_eq : e'.index = e.index
  group_eq : e'.place.group = base.group
  binding_eq : e'.place.binding.toNat = base.binding.toNat + e.index.toNat

/-- Elements are moved one by one, each by its index. -/
theorem moveElements_eq_ok {base : Coord} {es es' : List Element}
    (h : moveElements base es = .ok es') : List.Forall₂ (MovedElement base) es es' := by
  induction es generalizing es' with
  | nil =>
    cases h
    exact .nil
  | cons e es ih =>
    obtain ⟨binding, hbinding, h⟩ := bind_eq_ok_iff.1 h
    obtain ⟨rest, hrest, h⟩ := bind_eq_ok_iff.1 h
    cases h
    exact .cons ⟨rfl, rfl, rfl, (addWords_eq_ok_iff.1 hbinding).symm⟩ (ih hrest)

/-- Elements can be moved if no binding gets too large. -/
theorem exists_moveElements_iff {base : Coord} {es : List Element} :
    (∃ es', moveElements base es = .ok es') ↔
      ∀ e ∈ es, base.binding.toNat + e.index.toNat < UInt32.size := by
  induction es with
  | nil => exact ⟨fun _ => by simp, fun _ => ⟨[], rfl⟩⟩
  | cons e es ih =>
    rw [List.forall_mem_cons, ← exists_addWords_iff, ← ih]
    constructor
    · rintro ⟨es', h⟩
      obtain ⟨binding, hbinding, h⟩ := bind_eq_ok_iff.1 h
      obtain ⟨rest, hrest, -⟩ := bind_eq_ok_iff.1 h
      exact ⟨⟨binding, hbinding⟩, rest, hrest⟩
    · rintro ⟨⟨binding, hbinding⟩, rest, hrest⟩
      exact ⟨_, bind_eq_ok_iff.2 ⟨binding, hbinding, bind_eq_ok_iff.2 ⟨rest, hrest, rfl⟩⟩⟩

/-- Moved elements keep their indices. -/
theorem map_index_eq {base : Coord} {es es' : List Element}
    (h : List.Forall₂ (MovedElement base) es es') :
    es'.map Element.index = es.map Element.index := by
  induction h with
  | nil => rfl
  | cons he _ ih => rw [List.map_cons, List.map_cons, he.index_eq, ih]

/-- A resource and the same one, moved to `base`. -/
structure MovedResource (base : Coord) (r r' : Resource) : Prop where
  category_eq : r'.category = r.category
  name_eq : r'.name = r.name
  altName_eq : r'.altName = r.altName
  arraySize_eq : r'.arraySize = r.arraySize
  elements : List.Forall₂ (MovedElement base) r.elements r'.elements
  place_eq : r'.place = (r'.elements.head?.map Element.place).getD base

/-- A moved resource begins at the new base, and all else about it stays. -/
theorem moveResource_eq_ok {base : Coord} {r r' : Resource} (h : moveResource base r = .ok r') :
    MovedResource base r r' := by
  unfold moveResource at h
  split at h
  next hempty =>
    cases h
    rw [List.isEmpty_iff] at hempty
    exact ⟨rfl, rfl, rfl, rfl, by simp [hempty], by simp [hempty]⟩
  next =>
    obtain ⟨es, hes, h⟩ := bind_eq_ok_iff.1 h
    cases h
    exact ⟨rfl, rfl, rfl, rfl, moveElements_eq_ok hes, rfl⟩

/-- A resource can be moved exactly if all its slots behind `base` are words. -/
theorem exists_moveResource_iff {base : Coord} {r : Resource} :
    (∃ r', moveResource base r = .ok r') ↔
      ∀ s ∈ r.slots, base.binding.toNat + s.2.toNat < UInt32.size := by
  unfold moveResource Resource.slots
  split
  · simpa using base.binding.toNat_lt
  · rw [List.forall_mem_map, ← exists_moveElements_iff]
    constructor
    · rintro ⟨r', h⟩
      obtain ⟨es, hes, -⟩ := bind_eq_ok_iff.1 h
      exact ⟨es, hes⟩
    · rintro ⟨es, hes⟩
      exact ⟨_, bind_eq_ok_iff.2 ⟨es, hes, rfl⟩⟩

/-- The slots of a resource and the declarations after the move, one by one. -/
theorem MovedResource.forall₂_slots {base : Coord} {r r' : Resource} (h : MovedResource base r r') :
    List.Forall₂ (fun s d => d.name = s.1.name ∧ d.place.group = base.group ∧
      d.place.binding.toNat = base.binding.toNat + s.2.toNat) r.slots r'.declarations := by
  have hempty : r'.elements.isEmpty = r.elements.isEmpty := by
    rw [Bool.eq_iff_iff, List.isEmpty_iff_length_eq_zero, List.isEmpty_iff_length_eq_zero,
      h.elements.length_eq]
  unfold Resource.slots Resource.declarations
  rw [hempty]
  split
  next hnil =>
    rw [← hempty, List.isEmpty_iff] at hnil
    have hplace : r'.place = base := by simp [h.place_eq, hnil]
    exact .cons ⟨h.name_eq, by rw [hplace], by simp [hplace]⟩ .nil
  next =>
    rw [List.forall₂_map_left_iff, List.forall₂_map_right_iff]
    exact h.elements.imp fun e e' he => ⟨he.name_eq, he.group_eq, he.binding_eq⟩

/-- A move keeps a resource sound. -/
theorem MovedResource.sound {base : Coord} {r r' : Resource} (h : MovedResource base r r')
    (hr : r.Sound) : r'.Sound := by
  have hindices := map_index_eq h.elements
  have hmem : ∀ e ∈ r'.elements, ∃ e₀ ∈ r.elements, e₀.index = e.index := fun e he => by
    have : e.index ∈ r.elements.map Element.index := hindices ▸ List.mem_map_of_mem he
    simpa using this
  refine ⟨h.arraySize_eq ▸ hr.arraySize_ne_zero, ?_, fun e he => ?_, fun hne => ?_, fun e he => ?_⟩
  · have hordered := hr.arranged.ordered
    rw [← List.pairwise_map (f := Element.index) (R := (· < ·))] at hordered ⊢
    rwa [hindices]
  · obtain ⟨e₀, he₀, hindex⟩ := hmem e he
    rw [h.arraySize_eq, ← hindex]
    exact hr.arranged.index_lt e₀ he₀
  · have hne₀ : r.elements ≠ [] := by
      intro hnil
      rw [hnil, List.map_nil, List.map_eq_nil_iff] at hindices
      exact hne hindices
    obtain ⟨e₀, he₀, hreach⟩ := hr.arranged.reaches hne₀
    have : e₀.index ∈ r'.elements.map Element.index := hindices ▸ List.mem_map_of_mem he₀
    obtain ⟨e, he, hindex⟩ := List.mem_map.1 this
    exact ⟨e, he, by rw [hindex, hreach, h.arraySize_eq]⟩
  · rw [Option.mem_def] at he
    rw [h.place_eq, he, Option.map_some, Option.getD_some]

/-- A binding that is planned for a slot of a resource: the declaration is moved behind the first
binding of the entry by the slot that the resource was found at and by its own index. -/
structure PlannedFor (resolved : Mapping.Resolved) (s : Declaration × UInt32)
    (p : PlannedBinding) : Prop where
  before_eq : p.before = s.1
  group_eq : p.target.group = resolved.entry.group
  binding_eq : p.target.binding.toNat =
    resolved.entry.binding.toNat + resolved.slot.toNat + s.2.toNat

/-- One plan fits a slot. -/
theorem PlannedFor.unique {resolved : Mapping.Resolved} {s : Declaration × UInt32}
    {p q : PlannedBinding} (hp : PlannedFor resolved s p) (hq : PlannedFor resolved s q) :
    p = q := by
  obtain ⟨name, source, ⟨group, binding⟩⟩ := p
  obtain ⟨name', source', ⟨group', binding'⟩⟩ := q
  have hbefore := hp.before_eq.trans hq.before_eq.symm
  have hgroup : group = group' := hp.group_eq.trans hq.group_eq.symm
  have hbinding : binding = binding' :=
    UInt32.toNat_inj.1 (hp.binding_eq.trans hq.binding_eq.symm)
  cases hbefore
  rw [hgroup, hbinding]

theorem map_fst_eq {resolved : Mapping.Resolved} {slots : List (Declaration × UInt32)}
    {ps : List PlannedBinding} (h : List.Forall₂ (PlannedFor resolved) slots ps) :
    slots.map Prod.fst = ps.map PlannedBinding.before := by
  induction h with
  | nil => rfl
  | cons hs _ ih => rw [List.map_cons, List.map_cons, hs.before_eq, ih]

/-- The slots of a resource, the plan made of them, and the declarations after it, one by one. -/
theorem forall₂_planned {resolved : Mapping.Resolved} (base : Coord)
    (hgroup : base.group = resolved.entry.group)
    (hbinding : base.binding.toNat = resolved.entry.binding.toNat + resolved.slot.toNat)
    {slots : List (Declaration × UInt32)} {ds : List Declaration}
    (h : List.Forall₂ (fun s d => d.name = s.1.name ∧ d.place.group = base.group ∧
      d.place.binding.toNat = base.binding.toNat + s.2.toNat) slots ds) :
    let ps : List PlannedBinding :=
      List.zipWith (fun d e => ⟨d.name, d.place, e.place⟩) (slots.map Prod.fst) ds
    List.Forall₂ (PlannedFor resolved) slots ps ∧ ps.map PlannedBinding.after = ds := by
  induction h with
  | nil => exact ⟨.nil, rfl⟩
  | cons hd _ ih =>
    obtain ⟨hname, hdgroup, hdbinding⟩ := hd
    refine ⟨.cons ⟨rfl, hdgroup.trans hgroup, by rw [hdbinding, hbinding]⟩ ih.1, ?_⟩
    rw [List.map_cons, List.zipWith_cons_cons, List.map_cons, ih.2, PlannedBinding.after, ← hname]

/-- What the plan of one resource says. -/
structure PlannedResource (m : Remapper) (l : ResourceList) (r : Resource)
    (out : Resource × List PlannedBinding) (resolved : Mapping.Resolved) : Prop where
  resolve_eq : m.mapping.resolve l.shader r.name r.altName (m.suffixFor l) = .ok resolved
  fits : resolved.slot.toNat + r.arraySize.toNat ≤ resolved.entry.arraySize.toNat
  category_eq : out.1.category = r.category
  name_eq : out.1.name = r.name
  altName_eq : out.1.altName = r.altName
  sound : r.Sound → out.1.Sound
  slots : List.Forall₂ (PlannedFor resolved) r.slots out.2
  declarations_eq : out.1.declarations = out.2.map PlannedBinding.after

/-- A resource is planned exactly if it is found, fits and can be moved. -/
theorem planResource_eq_ok_iff {m : Remapper} {l : ResourceList} {r : Resource}
    {out : Resource × List PlannedBinding} :
    m.planResource l r = .ok out ↔ ∃ resolved base,
      m.mapping.resolve l.shader r.name r.altName (m.suffixFor l) = .ok resolved ∧
        resolved.place = .ok base ∧
        resolved.slot.toNat + r.arraySize.toNat ≤ resolved.entry.arraySize.toNat ∧
        moveResource base r = .ok out.1 ∧ out.2 = planned r out.1 := by
  constructor
  · intro h
    obtain ⟨resolved, hresolve, h⟩ := bind_eq_ok_iff.1 h
    obtain ⟨base, hbase, h⟩ := bind_eq_ok_iff.1 h
    split at h
    · obtain ⟨_, -, h⟩ := bind_eq_ok_iff.1 h
      cases h
    next hfits =>
      obtain ⟨moved, hmoved, h⟩ := bind_eq_ok_iff.1 h
      cases h
      exact ⟨resolved, base, Stop.ofError_eq_ok_iff.1 hresolve, Stop.ofCrash_eq_ok_iff.1 hbase,
        Nat.not_lt.1 hfits, Stop.ofCrash_eq_ok_iff.1 hmoved, rfl⟩
  · rintro ⟨resolved, base, hresolve, hbase, hfits, hmoved, hplanned⟩
    refine bind_eq_ok_iff.2 ⟨resolved, Stop.ofError_eq_ok_iff.2 hresolve, ?_⟩
    refine bind_eq_ok_iff.2 ⟨base, Stop.ofCrash_eq_ok_iff.2 hbase, ?_⟩
    rw [if_neg (Nat.not_lt.2 hfits)]
    refine bind_eq_ok_iff.2 ⟨out.1, Stop.ofCrash_eq_ok_iff.2 hmoved, ?_⟩
    rw [← hplanned]
    rfl

/-- A resource is planned exactly if it is found, fits, and all its slots are words. -/
theorem exists_planResource_iff {m : Remapper} {l : ResourceList} {r : Resource} :
    (∃ out, m.planResource l r = .ok out) ↔ ∃ resolved,
      m.mapping.resolve l.shader r.name r.altName (m.suffixFor l) = .ok resolved ∧
        resolved.slot.toNat + r.arraySize.toNat ≤ resolved.entry.arraySize.toNat ∧
        ∀ s ∈ r.slots, resolved.entry.binding.toNat + resolved.slot.toNat + s.2.toNat <
          UInt32.size := by
  constructor
  · rintro ⟨out, h⟩
    obtain ⟨resolved, base, hresolve, hplace, hfits, hmove, -⟩ := planResource_eq_ok_iff.1 h
    obtain ⟨binding, hbinding, hbase⟩ := bind_eq_ok_iff.1 hplace
    cases hbase
    refine ⟨resolved, hresolve, hfits, ?_⟩
    rw [addWords_eq_ok_iff.1 hbinding]
    exact exists_moveResource_iff.1 ⟨_, hmove⟩
  · rintro ⟨resolved, hresolve, hfits, hwords⟩
    obtain ⟨s, hs⟩ := List.exists_mem_of_ne_nil _ r.slots_ne_nil
    obtain ⟨binding, hbinding⟩ := exists_addWords_iff.2 (Nat.lt_of_add_right_lt (hwords s hs))
    rw [addWords_eq_ok_iff.1 hbinding] at hwords
    obtain ⟨moved, hmoved⟩ := exists_moveResource_iff.2 (show ∀ s ∈ r.slots,
      (Coord.mk resolved.entry.group binding).binding.toNat + s.2.toNat < UInt32.size from hwords)
    exact ⟨(moved, planned r moved), planResource_eq_ok_iff.2 ⟨resolved, _, hresolve,
      bind_eq_ok_iff.2 ⟨binding, hbinding, rfl⟩, hfits, hmoved, rfl⟩⟩

/-- A resource that is planned was resolved, and has a plan for each slot. -/
theorem planResource_eq_ok {m : Remapper} {l : ResourceList} {r : Resource}
    {out : Resource × List PlannedBinding} (h : m.planResource l r = .ok out) :
    ∃ resolved, PlannedResource m l r out resolved := by
  obtain ⟨resolved, base, hresolve, hplace, hfits, hmove, hplanned⟩ := planResource_eq_ok_iff.1 h
  obtain ⟨binding, hbinding, hbase⟩ := bind_eq_ok_iff.1 hplace
  cases hbase
  have hmoved := moveResource_eq_ok hmove
  obtain ⟨hslots, hafter⟩ := forall₂_planned ⟨resolved.entry.group, binding⟩ rfl
    (addWords_eq_ok_iff.1 hbinding).symm hmoved.forall₂_slots
  rw [Resource.map_fst_slots] at hslots hafter
  rw [planned] at hplanned
  rw [← hplanned] at hslots hafter
  exact ⟨resolved, hresolve, hfits, hmoved.category_eq, hmoved.name_eq, hmoved.altName_eq,
    hmoved.sound, hslots, hafter.symm⟩

/-! ## All resources -/

theorem exists_of_forall₂ {α β : Type} {R : α → β → Prop} {as : List α} {bs : List β}
    (h : List.Forall₂ R as bs) {b : β} (hb : b ∈ bs) : ∃ a ∈ as, R a b := by
  induction h with
  | nil => cases hb
  | cons hr _ ih =>
    rcases List.mem_cons.1 hb with rfl | hb'
    · exact ⟨_, List.mem_cons_self, hr⟩
    · obtain ⟨a, ha, hr⟩ := ih hb'
      exact ⟨a, List.mem_cons_of_mem _ ha, hr⟩

/-- What is planned for a resource that is found: a binding for each of its slots. -/
theorem mem_planned_iff {m : Remapper} {l : ResourceList} {r : Resource}
    {out : Resource × List PlannedBinding} {resolved : Mapping.Resolved}
    (h : m.planResource l r = .ok out)
    (hresolve : m.mapping.resolve l.shader r.name r.altName (m.suffixFor l) = .ok resolved)
    {p : PlannedBinding} : p ∈ out.2 ↔ ∃ s ∈ r.slots, PlannedFor resolved s p := by
  obtain ⟨resolved', hplanned⟩ := planResource_eq_ok h
  cases hplanned.resolve_eq.symm.trans hresolve
  constructor
  · exact exists_of_forall₂ hplanned.slots
  · rintro ⟨s, hs, hp⟩
    obtain ⟨q, hq, hfor⟩ := exists_of_forall₂ hplanned.slots.flip hs
    exact hp.unique hfor ▸ hq

/-- A list is planned resource by resource. -/
theorem planAll_eq_ok_iff {m : Remapper} {l : ResourceList} {rs : List Resource}
    {out : List (Resource × List PlannedBinding)} :
    m.planAll l rs = .ok out ↔ List.Forall₂ (fun r p => m.planResource l r = .ok p) rs out := by
  induction rs generalizing out with
  | nil => exact ⟨fun h => (by cases h; exact .nil), fun h => (by cases h; rfl)⟩
  | cons r rs ih =>
    simp only [planAll, bind_eq_ok_iff, ih, pure_eq_ok_iff]
    constructor
    · rintro ⟨p, hp, ps, hps, rfl⟩
      exact .cons hp hps
    · rintro (_ | ⟨hp, hps⟩)
      exact ⟨_, hp, _, hps, rfl⟩

/-- A list can be planned if each of its resources can. -/
theorem exists_planAll_iff {m : Remapper} {l : ResourceList} {rs : List Resource} :
    (∃ out, m.planAll l rs = .ok out) ↔ ∀ r ∈ rs, ∃ p, m.planResource l r = .ok p := by
  induction rs with
  | nil => exact ⟨fun _ => by simp, fun _ => ⟨[], rfl⟩⟩
  | cons r rs ih =>
    rw [List.forall_mem_cons, ← ih]
    simp only [planAll, bind_eq_ok_iff, pure_eq_ok_iff]
    constructor
    · rintro ⟨_, p, hp, ps, hps, -⟩
      exact ⟨⟨p, hp⟩, ps, hps⟩
    · rintro ⟨⟨p, hp⟩, ps, hps⟩
      exact ⟨_, p, hp, ps, hps, rfl⟩

theorem planAll_eq_ok {m : Remapper} {l : ResourceList} {rs : List Resource}
    {out : List (Resource × List PlannedBinding)} (h : m.planAll l rs = .ok out) :
    List.Forall₂ (fun r p => ∃ resolved, PlannedResource m l r p resolved) rs out :=
  (planAll_eq_ok_iff.1 h).imp fun _ _ => planResource_eq_ok

section

variable {m : Remapper} {l : ResourceList} {rs : List Resource}
  {out : List (Resource × List PlannedBinding)}

/-- The plans of resources begin at the places of the old list. -/
theorem before_of_planned
    (h : List.Forall₂ (fun r p => ∃ resolved, PlannedResource m l r p resolved) rs out) :
    rs.flatMap Resource.declarations = (out.flatMap Prod.snd).map PlannedBinding.before := by
  induction h with
  | nil => rfl
  | cons hr _ ih =>
    obtain ⟨_, hr⟩ := hr
    rw [List.flatMap_cons, List.flatMap_cons, List.map_append, ih, ← map_fst_eq hr.slots,
      Resource.map_fst_slots]

/-- The plans of resources end at the places of the new list. -/
theorem after_of_planned
    (h : List.Forall₂ (fun r p => ∃ resolved, PlannedResource m l r p resolved) rs out) :
    (out.map Prod.fst).flatMap Resource.declarations =
      (out.flatMap Prod.snd).map PlannedBinding.after := by
  induction h with
  | nil => rfl
  | cons hr _ ih =>
    obtain ⟨_, hr⟩ := hr
    rw [List.map_cons, List.flatMap_cons, List.flatMap_cons, List.map_append, ih,
      hr.declarations_eq]

/-- Planning changes no order. -/
theorem rank_of_planned
    (h : List.Forall₂ (fun r p => ∃ resolved, PlannedResource m l r p resolved) rs out) :
    (out.map Prod.fst).map ResourceList.rank = rs.map ResourceList.rank := by
  induction h with
  | nil => rfl
  | cons hr _ ih =>
    obtain ⟨_, hr⟩ := hr
    rw [List.map_cons, List.map_cons, List.map_cons, ih, ResourceList.rank, hr.category_eq]
    rfl

end

/-- A list is planned exactly if its resources are and the moved ones make a list. -/
theorem plan_eq_ok_iff {m : Remapper} {l moved : ResourceList} {plan : List PlannedBinding} :
    m.plan l = .ok (moved, plan) ↔ ∃ out built, m.planAll l l.resources = .ok out ∧
      ResourceList.build l.shader l.stage l.language (out.map Prod.fst) = .ok built ∧
      moved = (built.withCombinedSamplerSuffix l.combinedSamplerSuffix).withArraySuffix
        l.arraySuffix ∧
      plan = out.flatMap Prod.snd := by
  simp only [Remapper.plan, bind_eq_ok_iff, Stop.ofError_eq_ok_iff, pure_eq_ok_iff, Prod.mk.injEq,
    @eq_comm _ moved, @eq_comm _ plan, exists_and_left]

/-- What a plan says of its list. -/
structure Planned (m : Remapper) (l moved : ResourceList) (plan : List PlannedBinding) : Prop where
  shader_eq : moved.shader = l.shader
  stage_eq : moved.stage = l.stage
  arraySuffix_eq : moved.arraySuffix = ResourceList.usable l.arraySuffix
  before_eq : l.declarations = plan.map PlannedBinding.before
  after_eq : moved.declarations = plan.map PlannedBinding.after
  slots : ∀ p ∈ plan, ∃ r ∈ l.resources, ∃ r' ∈ moved.resources,
    ∃ ps resolved, PlannedResource m l r (r', ps) resolved ∧ ∃ s ∈ r.slots, PlannedFor resolved s p
  wellformed : moved.Wellformed

/-- A plan of a well-formed list is as the specification says. -/
theorem plan_eq_ok {m : Remapper} {l moved : ResourceList} {plan : List PlannedBinding}
    (h : m.plan l = .ok (moved, plan)) (hl : l.Wellformed) : Planned m l moved plan := by
  obtain ⟨out, built, hout, hbuild, rfl, rfl⟩ := plan_eq_ok_iff.1 h
  have hall := planAll_eq_ok hout
  have hwellformed : built.Wellformed := by
    refine ResourceList.wellformed_build hbuild fun r hr => ?_
    obtain ⟨q, hq, rfl⟩ := List.mem_map.1 hr
    obtain ⟨r, hr, resolved, hplanned⟩ := exists_of_forall₂ hall hq
    exact (hplanned.sound (hl.sound r hr)).arranged
  -- the ranks are those of a sorted list, so the new list keeps the order
  have hsorted : (out.map Prod.fst).Pairwise
      fun r s => ResourceList.rank r ≤ ResourceList.rank s := by
    have := List.pairwise_map.2 hl.sorted
    rw [← rank_of_planned hall] at this
    exact List.pairwise_map.1 this
  obtain ⟨rfl, -⟩ := ResourceList.build_eq_ok hbuild
  rw [ResourceList.arrange_of_sorted hsorted] at hwellformed ⊢
  refine ⟨rfl, rfl, rfl, before_of_planned hall, after_of_planned hall, fun p hp => ?_,
    hwellformed.withSuffixes _ _⟩
  obtain ⟨q, hq, hp⟩ := List.mem_flatMap.1 hp
  obtain ⟨r, hr, resolved, hplanned⟩ := exists_of_forall₂ hall hq
  obtain ⟨s, hs, hfor⟩ := exists_of_forall₂ hplanned.slots hp
  exact ⟨r, hr, q.1, List.mem_map_of_mem hq, q.2, resolved, hplanned, s, hs, hfor⟩

end Remapper

/-! ## Reachable lists -/

/-- The lists that come from building a list of resources without elements, from merging elements,
from plans, and from setting suffixes. -/
inductive ResourceList.Reachable : ResourceList → Prop
  | build {shader : String} {stage : Stage} {language : Language} {rs : List Resource}
      {l : ResourceList} (hrs : ∀ r ∈ rs, r.elements = [])
      (h : ResourceList.build shader stage language rs = .ok l) : Reachable l
  | merge {l merged : ResourceList} (suffix : String) (hl : Reachable l)
      (h : l.merge suffix = .ok merged) : Reachable merged
  | plan {l moved : ResourceList} {plan : List PlannedBinding} (m : Remapper) (hl : Reachable l)
      (h : m.plan l = .ok (moved, plan)) : Reachable moved
  | withSuffixes {l : ResourceList} (combined array : Option String) (hl : Reachable l) :
      Reachable ((l.withCombinedSamplerSuffix combined).withArraySuffix array)

/-- Every list that the library makes is well-formed. -/
theorem ResourceList.Reachable.wellformed {l : ResourceList} (h : l.Reachable) :
    l.Wellformed := by
  induction h with
  | build hrs h => exact wellformed_build h fun r hr => by rw [hrs r hr]; exact .nil
  | merge suffix _ h ih => exact ih.merge h
  | plan m _ h ih => exact (Remapper.plan_eq_ok h ih).wellformed
  | withSuffixes combined array _ ih => exact ih.withSuffixes combined array

end ShaderBind
