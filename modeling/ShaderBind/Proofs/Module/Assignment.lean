import ShaderBind.Module.Assign
import Mathlib.Data.List.Nodup

/-!
# Assigned bindings

A free binding of a group is found as long as there are fewer places in use than bindings
(`freeBinding_not_mem`): were the bindings that the search passes and the one it ends at all taken,
they would be more than the places in use.

`Assigned` has one rule for what happens to a variable: it is not bound, it keeps its place, or it
gets a free one. From the rules follows what an assignment does to the variables: they differ from
before in their places only (`Assigned.forall₂`), and those that are bound have places of their own
(`Assigned.nodup`).
-/

namespace ShaderBind

namespace Assign

/-! ## Free bindings -/

/-- Where the search for a free binding ends: behind bindings that are all taken, and at one that is
not unless the fuel is used up. -/
theorem lowestFree_eq (taken : List Coord) (group : UInt32) (fuel : Nat) (start : UInt32) :
    ∃ k ≤ fuel, lowestFree taken group fuel start = start + UInt32.ofNat k ∧
      (∀ i < k, ⟨group, start + UInt32.ofNat i⟩ ∈ taken) ∧
      (k < fuel → ⟨group, start + UInt32.ofNat k⟩ ∉ taken) := by
  induction fuel generalizing start with
  | zero => exact ⟨0, Nat.le_refl 0, by simp [lowestFree], by simp, by simp⟩
  | succ fuel ih =>
    unfold lowestFree
    split
    next htaken =>
      obtain ⟨k, hk, heq, hpassed, hfree⟩ := ih (start + 1)
      have hstep : ∀ i, start + 1 + UInt32.ofNat i = start + UInt32.ofNat (i + 1) := by
        intro i
        rw [UInt32.ofNat_add, UInt32.add_assoc, UInt32.add_comm (UInt32.ofNat i)]
        rfl
      refine ⟨k + 1, Nat.succ_le_succ hk, by rw [heq, hstep], fun i hi => ?_, fun hlt => ?_⟩
      · cases i with
        | zero => simpa using htaken
        | succ i =>
          rw [← hstep]
          exact hpassed i (Nat.lt_of_succ_lt_succ hi)
      · rw [← hstep]
        exact hfree (Nat.lt_of_succ_lt_succ hlt)
    next hfree => exact ⟨0, Nat.zero_le _, by simp, by simp, by simpa using hfree⟩

/-- The binding that is found is free. -/
theorem freeBinding_not_mem {taken : List Coord} (h : taken.length < UInt32.size) (group : UInt32) :
    ⟨group, freeBinding taken group⟩ ∉ taken := by
  obtain ⟨k, hk, heq, hpassed, hfree⟩ := lowestFree_eq taken group taken.length 0
  simp only [UInt32.zero_add] at heq hpassed hfree
  rw [freeBinding, heq]
  intro hmem
  have hlength : k = taken.length := by
    by_contra hne
    exact hfree (by omega) hmem
  -- all bindings up to the length are taken, one more than there are places
  have hsub : (List.range (taken.length + 1)).map (fun i => (⟨group, UInt32.ofNat i⟩ : Coord)) ⊆
      taken := by
    intro place hplace
    obtain ⟨i, hi, rfl⟩ := List.mem_map.1 hplace
    rcases Nat.lt_or_eq_of_le (Nat.le_of_lt_succ (List.mem_range.1 hi)) with hlt | rfl
    · exact hpassed i (hlength ▸ hlt)
    · exact hlength ▸ hmem
  have hword : ∀ i < taken.length + 1, (UInt32.ofNat i).toNat = i := fun i hi =>
    UInt32.toNat_ofNat_of_lt' (Nat.lt_of_lt_of_le hi h)
  have hnodup : ((List.range (taken.length + 1)).map
      fun i => (⟨group, UInt32.ofNat i⟩ : Coord)).Nodup := by
    refine List.Nodup.map_on (fun i hi j hj heq => ?_) List.nodup_range
    have hbinding := congrArg (fun c => c.binding.toNat) heq
    rwa [hword i (List.mem_range.1 hi), hword j (List.mem_range.1 hj)] at hbinding
  have hle := hnodup.length_le_of_subset hsub
  rw [List.length_map, List.length_range] at hle
  omega

/-! ## Places of bound variables -/

/-- The bound variables. -/
def bound (gs : List Global) : List Global :=
  gs.filter fun g => g.space.isBound

/-- The places that bound variables have. -/
def places (gs : List Global) : List Coord :=
  (bound gs).filterMap Global.place

theorem bound_cons_of_pos {g : Global} (h : g.space.isBound = true) (gs : List Global) :
    bound (g :: gs) = g :: bound gs :=
  List.filter_cons_of_pos h

theorem bound_cons_of_neg {g : Global} (h : ¬ g.space.isBound = true) (gs : List Global) :
    bound (g :: gs) = bound gs :=
  List.filter_cons_of_neg h

theorem places_cons (g : Global) (gs : List Global) :
    places (g :: gs) = (if g.space.isBound then g.place.toList else []) ++ places gs := by
  unfold places
  by_cases hspace : g.space.isBound = true
  · rw [bound_cons_of_pos hspace, if_pos hspace]
    cases hplace : g.place with
    | none => rw [List.filterMap_cons_none hplace, Option.toList_none, List.nil_append]
    | some place =>
      rw [List.filterMap_cons_some hplace, Option.toList_some, List.singleton_append]
  · rw [bound_cons_of_neg hspace, if_neg hspace, List.nil_append]

theorem length_bound_le (gs : List Global) : (bound gs).length ≤ gs.length :=
  List.length_filter_le ..

theorem length_places_le (gs : List Global) : (places gs).length ≤ (bound gs).length :=
  List.length_filterMap_le ..

/-- The places that are kept are those of bound variables, and none is kept twice. -/
theorem keptPlaces_spec (gs : List Global) {kept : List Coord} (h : kept.Nodup) :
    (keptPlaces gs kept).Nodup ∧ ∀ p, p ∈ keptPlaces gs kept ↔ p ∈ kept ∨ p ∈ places gs := by
  induction gs generalizing kept with
  | nil => exact ⟨h, fun p => by simp [keptPlaces, places, bound]⟩
  | cons g gs ih =>
    have hskip (hold : ∀ p, g.space.isBound = true → g.place = some p → p ∈ kept) :
        (keptPlaces gs kept).Nodup ∧
          ∀ p, p ∈ keptPlaces gs kept ↔ p ∈ kept ∨ p ∈ places (g :: gs) := by
      refine ⟨(ih h).1, fun p => ((ih h).2 p).trans ⟨Or.imp_right fun hp => ?_, ?_⟩⟩
      · rw [places_cons]
        exact List.mem_append_right _ hp
      · rw [places_cons, List.mem_append]
        rintro (hp | hp | hp)
        · exact .inl hp
        · split at hp
          next hspace => exact .inl (hold p hspace (Option.mem_toList.1 hp))
          next => exact absurd hp List.not_mem_nil
        · exact .inr hp
    unfold keptPlaces
    split
    next place hplace =>
      split
      next hnew =>
        obtain ⟨hspace, hnew⟩ : g.space.isBound = true ∧ place ∉ kept := by simpa using hnew
        obtain ⟨hnodup, hmem⟩ := ih (List.nodup_cons.2 ⟨hnew, h⟩)
        refine ⟨hnodup, fun p => (hmem p).trans ?_⟩
        rw [places_cons, if_pos hspace, hplace, Option.toList_some, List.singleton_append,
          List.mem_cons, List.mem_cons, or_assoc]
        exact or_left_comm
      next hold =>
        refine hskip fun p hspace hp => ?_
        cases hplace.symm.trans hp
        simpa [hspace] using hold
    next hplace => exact hskip fun p _ hp => absurd (hplace.symm.trans hp) (by simp)

/-! ## What becomes of a variable -/

/-- The group that a variable gets a binding in. -/
def homeGroup (g : Global) : UInt32 :=
  (g.place.map Coord.group).getD 0

/-- A variable at a free binding of its group. -/
def moved (taken : List Coord) (g : Global) : Global :=
  { g with place := some ⟨homeGroup g, freeBinding taken (homeGroup g)⟩ }

/-- What an assignment makes of variables, with the places still to be kept and those in use, and
how many it moves. -/
inductive Assigned : (kept taken : List Coord) → List Global → List Global → Nat → Prop
  | nil {kept taken} : Assigned kept taken [] [] 0
  | other {kept taken g gs gs' n} (hspace : ¬ g.space.isBound = true)
      (hrest : Assigned kept taken gs gs' n) : Assigned kept taken (g :: gs) (g :: gs') n
  | keep {kept taken g gs gs' n place} (hspace : g.space.isBound = true)
      (hplace : g.place = some place) (hkept : place ∈ kept)
      (hrest : Assigned (kept.erase place) taken gs gs' n) :
      Assigned kept taken (g :: gs) (g :: gs') n
  | move {kept taken g gs gs' n} (hspace : g.space.isBound = true)
      (hkept : ∀ place ∈ g.place, place ∉ kept)
      (hrest : Assigned kept (⟨homeGroup g, freeBinding taken (homeGroup g)⟩ :: taken) gs gs' n) :
      Assigned kept taken (g :: gs) (moved taken g :: gs') (n + 1)

theorem assigned_assignAll (kept taken : List Coord) (gs : List Global) :
    Assigned kept taken gs (assignAll kept taken gs).1 (assignAll kept taken gs).2 := by
  induction gs generalizing kept taken with
  | nil => exact .nil
  | cons g gs ih =>
    unfold assignAll
    split
    next hspace => exact .other (by simpa using hspace) (ih kept taken)
    next hspace =>
      have hspace : g.space.isBound = true := by simpa using hspace
      split
      next place hplace =>
        split
        next hkept => exact .keep hspace hplace (by simpa using hkept) (ih _ _)
        next hkept =>
          have hmove : ∀ p ∈ g.place, p ∉ kept := by
            rintro p hp
            cases hplace.symm.trans hp
            simpa using hkept
          have hhome : homeGroup g = place.group := by
            rw [homeGroup, hplace]
            rfl
          have hmoved := Assigned.move hspace hmove (ih kept (_ :: taken))
          simp only [moved, hhome] at hmoved
          exact hmoved
      next hplace =>
        have hmove : ∀ p ∈ g.place, p ∉ kept := by simp [hplace]
        have hhome : homeGroup g = 0 := by
          rw [homeGroup, hplace]
          rfl
        have hmoved := Assigned.move hspace hmove (ih kept (_ :: taken))
        simp only [moved, hhome] at hmoved
        exact hmoved

/-- Places to be kept that are not the next variable's belong to those behind it. -/
theorem subset_places_of_not_mem {kept : List Coord} {g : Global} {gs : List Global}
    (hkept : kept ⊆ places (g :: gs)) (hnot : ∀ place ∈ g.place, place ∉ kept) :
    kept ⊆ places gs := by
  intro p hp
  have hmem := hkept hp
  rw [places_cons, List.mem_append] at hmem
  refine hmem.resolve_left fun hplace => ?_
  split at hplace
  · exact hnot p (Option.mem_toList.1 hplace) hp
  · exact absurd hplace List.not_mem_nil

/-- Before a variable that moves, fewer places are in use than there are bindings: the places to be
kept belong to variables behind it, so that there is one bound variable more. -/
theorem length_taken_lt {kept taken : List Coord} {g : Global} {gs : List Global}
    (hspace : g.space.isBound = true) (hnot : ∀ place ∈ g.place, place ∉ kept)
    (hnodup : kept.Nodup) (hkept : kept ⊆ places (g :: gs))
    (hfew : taken.length + (bound (g :: gs)).length < UInt32.size + kept.length) :
    taken.length < UInt32.size := by
  have hrest := hnodup.length_le_of_subset (subset_places_of_not_mem hkept hnot)
  have hle := length_places_le gs
  rw [bound_cons_of_pos hspace, List.length_cons] at hfew
  omega

namespace Assigned

variable {kept taken : List Coord} {gs gs' : List Global} {n : Nat}

/-- Variables change in their places only, and a bound one gets a place. -/
theorem forall₂ (h : Assigned kept taken gs gs' n) :
    List.Forall₂ (fun g g' => (∃ place, g' = { g with place }) ∧
      (g.space.isBound = true → ∃ place, g'.place = some place)) gs gs' := by
  induction h with
  | nil => exact .nil
  | other hspace _ ih => exact .cons ⟨⟨_, rfl⟩, fun hbound => absurd hbound hspace⟩ ih
  | keep _ hplace _ _ ih => exact .cons ⟨⟨_, rfl⟩, fun _ => ⟨_, hplace⟩⟩ ih
  | move _ _ _ ih => exact .cons ⟨⟨_, rfl⟩, fun _ => ⟨_, rfl⟩⟩ ih

/-- Bound variables get places of their own: a place is kept by one variable only, and a new one was
not in use. A place that is still to be kept belongs to a variable that comes later, so that there
are never more places in use than bound variables. -/
theorem nodup (h : Assigned kept taken gs gs' n) (hnodup : kept.Nodup) (hkept : kept ⊆ places gs)
    (htaken : kept ⊆ taken) (hfew : taken.length + (bound gs).length < UInt32.size + kept.length) :
    (places gs').Nodup ∧ ∀ p ∈ places gs', p ∈ kept ∨ p ∉ taken := by
  induction h with
  | nil => exact ⟨List.nodup_nil, fun p hp => absurd hp List.not_mem_nil⟩
  | other hspace _ ih =>
    rw [places_cons, if_neg hspace] at hkept ⊢
    rw [bound_cons_of_neg hspace] at hfew
    exact ih hnodup hkept htaken hfew
  | @keep kept taken g gs gs' n place hspace hplace hmem _ ih =>
    rw [places_cons, if_pos hspace, hplace] at hkept ⊢
    rw [bound_cons_of_pos hspace, List.length_cons] at hfew
    have hlength := List.length_erase_of_mem hmem
    have hpos := List.length_pos_of_mem hmem
    have hrest : kept.erase place ⊆ places gs := by
      intro p hp
      obtain ⟨hne, hp⟩ := (hnodup.mem_erase_iff).1 hp
      exact (List.mem_cons.1 (hkept hp)).resolve_left hne
    obtain ⟨hnodup', hplaces⟩ := ih (hnodup.erase place) hrest
      (List.Subset.trans List.erase_subset htaken) (by omega)
    refine ⟨List.nodup_cons.2 ⟨fun hp => ?_, hnodup'⟩, List.forall_mem_cons.2 ⟨.inl hmem, ?_⟩⟩
    · rcases hplaces place hp with hp | hp
      · exact (hnodup.mem_erase_iff.1 hp).1 rfl
      · exact hp (htaken hmem)
    · exact fun p hp => (hplaces p hp).imp_left (List.erase_subset ·)
  | @move kept taken g gs gs' n hspace hnot _ ih =>
    have hrest := subset_places_of_not_mem hkept hnot
    have hfree := freeBinding_not_mem (length_taken_lt hspace hnot hnodup hkept hfew) (homeGroup g)
    rw [bound_cons_of_pos hspace, List.length_cons] at hfew
    obtain ⟨hnodup', hplaces⟩ := ih hnodup hrest (List.subset_cons_of_subset _ htaken)
      (by rw [List.length_cons]; omega)
    have hmoved : places (moved taken g :: gs') =
        ⟨homeGroup g, freeBinding taken (homeGroup g)⟩ :: places gs' := by
      rw [places_cons, if_pos (show (moved taken g).space.isBound = true from hspace)]
      rfl
    rw [hmoved]
    refine ⟨List.nodup_cons.2 ⟨fun hp => ?_, hnodup'⟩, List.forall_mem_cons.2 ⟨.inr hfree, ?_⟩⟩
    · rcases hplaces _ hp with hp | hp
      · exact hfree (htaken hp)
      · exact hp List.mem_cons_self
    · exact fun p hp => (hplaces p hp).imp_right fun hnot hp => hnot (List.mem_cons_of_mem _ hp)

end Assigned

end Assign

/-- An assignment changes nothing but places, and gives each bound variable one of its own. -/
theorem ShaderModule.assignBindings_spec (m : ShaderModule)
    (hfew : (Assign.bound m.globals).length < UInt32.size) :
    m.assignBindings.1.entryPoints = m.entryPoints ∧
      List.Forall₂ (fun g g' => (∃ place, g' = { g with place }) ∧
        (g.space.isBound = true → ∃ place, g'.place = some place))
        m.globals m.assignBindings.1.globals ∧
      (Assign.places m.assignBindings.1.globals).Nodup := by
  obtain ⟨hnodup, hkept⟩ := Assign.keptPlaces_spec m.globals List.nodup_nil
  have hassigned := Assign.assigned_assignAll (Assign.keptPlaces m.globals [])
    (Assign.keptPlaces m.globals []) m.globals
  refine ⟨rfl, hassigned.forall₂, (hassigned.nodup hnodup ?_ (List.Subset.refl _) (by omega)).1⟩
  exact fun p hp => ((hkept p).1 hp).resolve_left List.not_mem_nil

end ShaderBind
