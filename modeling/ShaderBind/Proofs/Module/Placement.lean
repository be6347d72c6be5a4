import ShaderBind.Proofs.Module.Assignment
import Mathlib.Order.Bounds.Basic

/-!
# Where assigned bindings are

An assignment treats each bound variable by one of two rules. The first variable that declares a place
keeps it. Any other gets, in the group it declares or else in group zero, the least binding that is
free: that no bound variable declares, before or behind it, and that was not given to an earlier one
(`Ruled`).

The assignment goes through the variables in turn, with the places still to be kept and the places in
use. What these lists hold is known at each variable (`Between`), and each of the three things that can
happen to a variable keeps this so; hence every variable follows its rule (`Assigned.ruled`). All else
follows from the rules (`ShaderModule.assignBindings_exact`): no two bound variables share a place, and
where none do an assignment changes nothing.
-/

namespace ShaderBind

namespace Assign

/-! ## The rules -/

/-- The variable at an index is bound and declares a place. -/
def Declares (gs : List Global) (i : Nat) (p : Coord) : Prop :=
  ∃ g, gs[i]? = some g ∧ g.space.isBound = true ∧ g.place = some p

/-- The variable at an index is the first that declares its place. -/
def First (gs : List Global) (i : Nat) : Prop :=
  ∃ p, Declares gs i p ∧ ∀ j < i, ¬ Declares gs j p

/-- The place is free for the variable at an index: none of the variables `gs` declares it, and none
before the index has got it, in `gs'`, that was not the first of its place. -/
def Free (gs gs' : List Global) (i : Nat) (p : Coord) : Prop :=
  (∀ j, ¬ Declares gs j p) ∧ ∀ j < i, ¬ First gs j → ¬ Declares gs' j p

/-- What becomes of the variable at an index. -/
inductive Ruled (gs gs' : List Global) (i : Nat) : Prop
  | other {g : Global} (hg : gs[i]? = some g) (hspace : ¬ g.space.isBound = true)
      (hg' : gs'[i]? = some g)
  | keep {g : Global} (hg : gs[i]? = some g) (hspace : g.space.isBound = true)
      (hfirst : First gs i) (hg' : gs'[i]? = some g)
  | move {g : Global} {b : UInt32} (hg : gs[i]? = some g) (hspace : g.space.isBound = true)
      (hlate : ¬ First gs i) (hg' : gs'[i]? = some { g with place := some ⟨homeGroup g, b⟩ })
      (hleast : IsLeast {b | Free gs gs' i ⟨homeGroup g, b⟩} b)

/-- The number of bound variables that have another place than before. -/
def changes (gs gs' : List Global) : Nat :=
  (gs.zip gs').countP fun (g, g') => g.space.isBound && decide (g.place ≠ g'.place)

/-! ## Declared places -/

section

variable {gs gs' : List Global} {i j : Nat} {p q : Coord}

/-- A variable declares one place at most. -/
theorem Declares.unique (hp : Declares gs i p) (hq : Declares gs i q) : p = q := by
  obtain ⟨g, hg, -, hplace⟩ := hp
  obtain ⟨g', hg', -, hplace'⟩ := hq
  cases hg.symm.trans hg'
  exact Option.some.inj (hplace.symm.trans hplace')

theorem declares_of_getElem? {g : Global} (hg : gs[i]? = some g) (hspace : g.space.isBound = true) :
    Declares gs i p ↔ g.place = some p := by
  constructor
  · rintro ⟨g', hg', -, hplace⟩
    cases hg.symm.trans hg'
    exact hplace
  · intro hplace
    exact ⟨g, hg, hspace, hplace⟩

theorem not_declares_of_getElem? {g : Global} (hg : gs[i]? = some g)
    (hspace : ¬ g.space.isBound = true) : ¬ Declares gs i p := by
  rintro ⟨g', hg', hspace', -⟩
  cases hg.symm.trans hg'
  exact hspace hspace'

/-- What stands further on changes no declaration. -/
theorem declares_append_of_lt (h : i < gs.length) :
    Declares (gs ++ gs') i p ↔ Declares gs i p := by
  unfold Declares
  rw [List.getElem?_append_left h]

/-- The places of a module are those that its variables declare. -/
theorem mem_places_iff : p ∈ places gs ↔ ∃ i, Declares gs i p := by
  unfold places bound Declares
  simp only [List.mem_filterMap, List.mem_filter]
  constructor
  · rintro ⟨g, ⟨hg, hspace⟩, hplace⟩
    obtain ⟨i, hi⟩ := List.mem_iff_getElem?.1 hg
    exact ⟨i, g, hi, hspace, hplace⟩
  · rintro ⟨i, g, hi, hspace, hplace⟩
    exact ⟨g, ⟨List.mem_of_getElem? hi, hspace⟩, hplace⟩

/-- A first variable has a place that those before it do not declare, and conversely. -/
theorem first_iff (hp : Declares gs i p) : First gs i ↔ ∀ j < i, ¬ Declares gs j p := by
  constructor
  · rintro ⟨q, hq, hfirst⟩
    rwa [hp.unique hq]
  · intro hfirst
    exact ⟨p, hp, hfirst⟩

end

/-- No binding below the one that is found is free. -/
theorem mem_of_lt_freeBinding {taken : List Coord} {group b : UInt32}
    (h : b < freeBinding taken group) : ⟨group, b⟩ ∈ taken := by
  obtain ⟨k, hk, heq, hpassed, -⟩ := lowestFree_eq taken group taken.length 0
  simp only [UInt32.zero_add] at heq hpassed
  rw [freeBinding, heq, UInt32.lt_iff_toNat_lt] at h
  have hword : (UInt32.ofNat k).toNat ≤ k := by
    rw [UInt32.toNat_ofNat']
    exact Nat.mod_le ..
  have hmem := hpassed b.toNat (lt_of_lt_of_le h hword)
  rwa [UInt32.ofNat_toNat] at hmem

theorem places_append (gs gs' : List Global) : places (gs ++ gs') = places gs ++ places gs' := by
  rw [places, bound, List.filter_append, List.filterMap_append]
  rfl

/-! ## From variable to variable -/

/-- The assignment of all variables stands between `before`, which have become `before'`, and `rest`:
the places to be kept are those that no variable before declares, and those in use are declared or
were given to a variable before. -/
structure Between (all before before' rest : List Global) (kept taken : List Coord) : Prop where
  all_eq : all = before ++ rest
  length_eq : before'.length = before.length
  nodup : kept.Nodup
  mem_kept : ∀ p, p ∈ kept ↔ p ∈ places all ∧ ∀ j < before.length, ¬ Declares all j p
  mem_taken : ∀ p, p ∈ taken ↔
    p ∈ places all ∨ ∃ j < before.length, ¬ First all j ∧ Declares before' j p
  few : taken.length + (bound rest).length < UInt32.size + kept.length

namespace Between

variable {all before before' rest : List Global} {kept taken : List Coord}

/-- What is still to be kept belongs to variables that come. -/
theorem kept_subset (h : Between all before before' rest kept taken) : kept ⊆ places rest := by
  intro p hp
  obtain ⟨hall, hbefore⟩ := (h.mem_kept p).1 hp
  rw [h.all_eq, places_append, List.mem_append] at hall
  refine hall.resolve_left fun hmem => ?_
  obtain ⟨j, hj⟩ := mem_places_iff.1 hmem
  have hlt : j < before.length := by
    obtain ⟨g, hg, -⟩ := hj
    exact (List.getElem?_eq_some_iff.1 hg).1
  refine hbefore j hlt ?_
  rw [h.all_eq]
  exact (declares_append_of_lt hlt).2 hj

/-- The places that are not in use are free for the next variable. -/
theorem not_mem_taken_iff (h : Between all before before' rest kept taken) (rest' : List Global)
    {p : Coord} : p ∉ taken ↔ Free all (before' ++ rest') before.length p := by
  have hout : ∀ j < before.length, (Declares (before' ++ rest') j p ↔ Declares before' j p) :=
    fun j hj => declares_append_of_lt (h.length_eq ▸ hj)
  rw [h.mem_taken, mem_places_iff, not_or, not_exists, not_exists]
  unfold Free
  refine and_congr_right fun _ => forall_congr' fun j => ?_
  constructor
  · intro hnot hj hlate hdeclares
    exact hnot ⟨hj, hlate, (hout j hj).1 hdeclares⟩
  · rintro hnot ⟨hj, hlate, hdeclares⟩
    exact hnot hj hlate ((hout j hj).2 hdeclares)

variable {g : Global}

theorem getElem?_all (h : Between all before before' (g :: rest) kept taken) :
    all[before.length]? = some g := by
  rw [h.all_eq, List.getElem?_append_right (Nat.le_refl _), Nat.sub_self, List.getElem?_cons_zero]

theorem getElem?_out (h : Between all before before' (g :: rest) kept taken) (g' : Global)
    (rest' : List Global) : (before' ++ g' :: rest')[before.length]? = some g' := by
  rw [← h.length_eq, List.getElem?_append_right (Nat.le_refl _), Nat.sub_self,
    List.getElem?_cons_zero]

/-- A variable whose place is still to be kept is the first that declares it. -/
theorem first_of_mem_kept (h : Between all before before' (g :: rest) kept taken)
    (hspace : g.space.isBound = true) {place : Coord} (hplace : g.place = some place)
    (hmem : place ∈ kept) : First all before.length :=
  ⟨place, (declares_of_getElem? h.getElem?_all hspace).2 hplace, ((h.mem_kept place).1 hmem).2⟩

/-- A variable whose place is not kept is not the first at it. -/
theorem not_first_of_not_mem_kept (h : Between all before before' (g :: rest) kept taken)
    (hspace : g.space.isBound = true) (hnot : ∀ place ∈ g.place, place ∉ kept) :
    ¬ First all before.length := by
  rintro ⟨place, hdeclares, hfirst⟩
  refine hnot place ((declares_of_getElem? h.getElem?_all hspace).1 hdeclares) ?_
  exact (h.mem_kept place).2 ⟨mem_places_iff.2 ⟨_, hdeclares⟩, hfirst⟩

theorem freeBinding_not_mem_taken (h : Between all before before' (g :: rest) kept taken)
    (hspace : g.space.isBound = true) (hnot : ∀ place ∈ g.place, place ∉ kept) (group : UInt32) :
    ⟨group, freeBinding taken group⟩ ∉ taken :=
  freeBinding_not_mem (length_taken_lt hspace hnot h.nodup h.kept_subset h.few) group

/-- The binding that a variable moves to is the least that is free. -/
theorem isLeast_freeBinding (h : Between all before before' (g :: rest) kept taken)
    (hspace : g.space.isBound = true) (hnot : ∀ place ∈ g.place, place ∉ kept) (group : UInt32)
    (rest' : List Global) :
    IsLeast {b | Free all (before' ++ rest') before.length ⟨group, b⟩} (freeBinding taken group) := by
  constructor
  · exact (h.not_mem_taken_iff rest').1 (h.freeBinding_not_mem_taken hspace hnot group)
  · intro b hb
    by_contra hlt
    exact (h.not_mem_taken_iff rest').2 hb (mem_of_lt_freeBinding (UInt32.not_le.1 hlt))

/-- A step over a variable: a place that it declares need not be kept any more, and a place that it
got is in use. -/
theorem snoc (h : Between all before before' (g :: rest) kept taken) {g' : Global}
    {kept' taken' : List Coord} (hnodup : kept'.Nodup)
    (hkept : ∀ p, p ∈ kept' ↔ p ∈ kept ∧ ¬ Declares all before.length p)
    (htaken : ∀ p, p ∈ taken' ↔
      p ∈ taken ∨ ¬ First all before.length ∧ g'.space.isBound = true ∧ g'.place = some p)
    (hfew : taken'.length + (bound rest).length < UInt32.size + kept'.length) :
    Between all (before ++ [g]) (before' ++ [g']) rest kept' taken' where
  all_eq := by rw [h.all_eq, List.append_cons]
  length_eq := by simp [h.length_eq]
  nodup := hnodup
  mem_kept := by
    intro p
    rw [hkept, h.mem_kept, List.length_append, List.length_singleton, Nat.forall_lt_succ_right,
      and_assoc]
  mem_taken := by
    intro p
    have hlast : Declares (before' ++ [g']) before.length p ↔
        g'.space.isBound = true ∧ g'.place = some p := by
      simp [Declares, h.getElem?_out g' []]
    have hearlier : ∀ j < before.length,
        (Declares (before' ++ [g']) j p ↔ Declares before' j p) :=
      fun j hj => declares_append_of_lt (h.length_eq ▸ hj)
    rw [htaken, h.mem_taken, List.length_append, List.length_singleton, Nat.exists_lt_succ_right,
      hlast, or_assoc]
    refine or_congr_right (or_congr_left (exists_congr fun j => and_congr_right fun hj => ?_))
    rw [hearlier j hj]
  few := hfew

/-- A variable that is not bound is passed. -/
theorem other (h : Between all before before' (g :: rest) kept taken)
    (hspace : ¬ g.space.isBound = true) :
    Between all (before ++ [g]) (before' ++ [g]) rest kept taken := by
  have hfew := h.few
  rw [bound_cons_of_neg hspace] at hfew
  refine h.snoc h.nodup (fun p => ?_) (fun p => ?_) hfew
  · simp [not_declares_of_getElem? h.getElem?_all hspace]
  · simp [hspace]

/-- The first variable of a place keeps it, and the place is kept no longer. -/
theorem keep (h : Between all before before' (g :: rest) kept taken)
    (hspace : g.space.isBound = true) {place : Coord} (hplace : g.place = some place)
    (hmem : place ∈ kept) :
    Between all (before ++ [g]) (before' ++ [g]) rest (kept.erase place) taken := by
  have hfew := h.few
  have hlength := List.length_erase_of_mem hmem
  have hpos := List.length_pos_of_mem hmem
  rw [bound_cons_of_pos hspace, List.length_cons] at hfew
  refine h.snoc (h.nodup.erase place) (fun p => ?_) (fun p => ?_) (by omega)
  · rw [h.nodup.mem_erase_iff, declares_of_getElem? h.getElem?_all hspace, hplace,
      Option.some_inj, and_comm, eq_comm]
  · simp [h.first_of_mem_kept hspace hplace hmem]

/-- Any other variable is moved to a free binding, which is taken from then on. -/
theorem move (h : Between all before before' (g :: rest) kept taken)
    (hspace : g.space.isBound = true) (hnot : ∀ place ∈ g.place, place ∉ kept) :
    Between all (before ++ [g]) (before' ++ [moved taken g]) rest kept
      (⟨homeGroup g, freeBinding taken (homeGroup g)⟩ :: taken) := by
  have hfew := h.few
  rw [bound_cons_of_pos hspace, List.length_cons] at hfew
  refine h.snoc h.nodup (fun p => ?_) (fun p => ?_) (by rw [List.length_cons]; omega)
  · rw [declares_of_getElem? h.getElem?_all hspace]
    exact ⟨fun hp => ⟨hp, fun hplace => hnot p hplace hp⟩, And.left⟩
  · have hlate := h.not_first_of_not_mem_kept hspace hnot
    simp [moved, hspace, hlate, eq_comm, or_comm]

end Between

/-! ## Every variable follows its rule -/

/-- A variable counts if it is bound and its place changes. -/
theorem changes_cons (g g' : Global) (gs gs' : List Global) :
    changes (g :: gs) (g' :: gs') =
      changes gs gs' + if g.space.isBound && decide (g.place ≠ g'.place) then 1 else 0 := by
  rw [changes, List.zip_cons_cons, List.countP_cons]
  rfl

theorem changes_cons_self (g : Global) (gs gs' : List Global) :
    changes (g :: gs) (g :: gs') = changes gs gs' := by
  simp [changes_cons]

/-- A variable that moves has another place than before: its old one was in use. -/
theorem Between.changes_moved {all before before' rest rest' : List Global} {kept taken : List Coord}
    {g : Global} (h : Between all before before' (g :: rest) kept taken)
    (hspace : g.space.isBound = true) (hnot : ∀ place ∈ g.place, place ∉ kept) :
    changes (g :: rest) (moved taken g :: rest') = changes rest rest' + 1 := by
  have hne : g.place ≠ (moved taken g).place := by
    intro hplace
    have hdeclares := (declares_of_getElem? h.getElem?_all hspace).2 hplace
    refine h.freeBinding_not_mem_taken hspace hnot (homeGroup g) ?_
    exact (h.mem_taken _).2 (.inl (mem_places_iff.2 ⟨_, hdeclares⟩))
  rw [changes_cons, if_pos (by simp [hspace, hne])]

/-- Rules that hold at one position and at all later ones hold from there on. -/
theorem forall_ruled_cons {all before before' gs' : List Global} {g g' : Global}
    (hfirst : Ruled all (before' ++ g' :: gs') before.length)
    (hrest : ∀ i, (before ++ [g]).length ≤ i → i < all.length →
      Ruled all (before' ++ [g'] ++ gs') i) :
    ∀ i, before.length ≤ i → i < all.length → Ruled all (before' ++ g' :: gs') i := by
  intro i hle hlt
  rcases hle.eq_or_lt with rfl | hgt
  · exact hfirst
  · rw [List.append_cons]
    exact hrest i (by rwa [List.length_append, List.length_singleton]) hlt

/-- The run: each variable that is still to come follows its rule, and those that move are counted. -/
theorem Assigned.ruled {all before before' rest rest' : List Global} {kept taken : List Coord}
    {n : Nat} (h : Assigned kept taken rest rest' n)
    (hbetween : Between all before before' rest kept taken) :
    (∀ i, before.length ≤ i → i < all.length → Ruled all (before' ++ rest') i) ∧
      changes rest rest' = n := by
  induction h generalizing before before' with
  | nil =>
    refine ⟨fun i hle hlt => ?_, rfl⟩
    rw [hbetween.all_eq, List.append_nil] at hlt
    omega
  | other hspace _ ih =>
    obtain ⟨hruled, hcount⟩ := ih (hbetween.other hspace)
    refine ⟨forall_ruled_cons ?_ hruled, by rw [changes_cons_self, hcount]⟩
    exact .other hbetween.getElem?_all hspace (hbetween.getElem?_out ..)
  | keep hspace hplace hmem _ ih =>
    obtain ⟨hruled, hcount⟩ := ih (hbetween.keep hspace hplace hmem)
    refine ⟨forall_ruled_cons ?_ hruled, by rw [changes_cons_self, hcount]⟩
    exact .keep hbetween.getElem?_all hspace (hbetween.first_of_mem_kept hspace hplace hmem)
      (hbetween.getElem?_out ..)
  | move hspace hnot _ ih =>
    obtain ⟨hruled, hcount⟩ := ih (hbetween.move hspace hnot)
    refine ⟨forall_ruled_cons ?_ hruled, by rw [hbetween.changes_moved hspace hnot, hcount]⟩
    exact .move hbetween.getElem?_all hspace (hbetween.not_first_of_not_mem_kept hspace hnot)
      (hbetween.getElem?_out ..) (hbetween.isLeast_freeBinding hspace hnot _ _)

/-- As many variables are bound after an assignment as before. -/
theorem Assigned.length_bound {kept taken : List Coord} {gs gs' : List Global} {n : Nat}
    (h : Assigned kept taken gs gs' n) : (bound gs').length = (bound gs).length := by
  induction h with
  | nil => rfl
  | other hspace _ ih => rw [bound_cons_of_neg hspace, bound_cons_of_neg hspace, ih]
  | keep hspace _ _ _ ih =>
    rw [bound_cons_of_pos hspace, bound_cons_of_pos hspace, List.length_cons, List.length_cons, ih]
  | move hspace _ _ ih =>
    rw [bound_cons_of_pos hspace, bound_cons_of_pos (g := moved _ _) hspace, List.length_cons,
      List.length_cons, ih]

/-! ## What the rules come to -/

/-- What an assignment makes of variables, and how many it moves. -/
structure Distributed (gs gs' : List Global) (n : Nat) : Prop where
  length_eq : gs'.length = gs.length
  /-- Bound variables have places. -/
  placed : ∀ (i : Nat) (g : Global), gs'[i]? = some g → g.space.isBound = true → ∃ p, g.place = some p
  /-- No two of them share one. -/
  apart : ∀ i j p, Declares gs' i p → Declares gs' j p → i = j
  /-- The first variable that declares a place stays as it is. -/
  kept : ∀ (i : Nat) (g : Global), gs[i]? = some g → First gs i → gs'[i]? = some g
  /-- Any other bound variable changes in its place only, for the least free one of its group. -/
  moved : ∀ (i : Nat) (g : Global), gs[i]? = some g → g.space.isBound = true → ¬ First gs i →
    ∃ b, gs'[i]? = some { g with place := some ⟨homeGroup g, b⟩ } ∧
      IsLeast {b | Free gs gs' i ⟨homeGroup g, b⟩} b
  /-- Other variables stay as they are. -/
  other : ∀ (i : Nat) (g : Global), gs[i]? = some g → ¬ g.space.isBound = true → gs'[i]? = some g
  count_eq : n = changes gs gs'

section

variable {gs gs' : List Global} {i j : Nat} {p : Coord}

/-- Where a place of an assigned variable comes from. -/
theorem Ruled.declares (h : Ruled gs gs' i) (hp : Declares gs' i p) :
    First gs i ∧ Declares gs i p ∨ ¬ First gs i ∧ Free gs gs' i p := by
  cases h with
  | other _ hspace hg' => exact absurd hp (not_declares_of_getElem? hg' hspace)
  | keep hg hspace hfirst hg' =>
    have hplace := (declares_of_getElem? hg' hspace).1 hp
    exact .inl ⟨hfirst, (declares_of_getElem? hg hspace).2 hplace⟩
  | move hg hspace hlate hg' hleast =>
    have hplace := (declares_of_getElem? hg' hspace).1 hp
    cases hplace
    exact .inr ⟨hlate, hleast.1⟩

/-- Two places in order are not the same: a place that is kept was declared, and one that is free was
neither declared nor given before. -/
theorem Ruled.not_declares_of_lt (hi : Ruled gs gs' i) (hj : Ruled gs gs' j) (hlt : i < j)
    (hpi : Declares gs' i p) : ¬ Declares gs' j p := by
  intro hpj
  rcases hi.declares hpi with ⟨-, hdeclares⟩ | ⟨hlate, hfree⟩
  · rcases hj.declares hpj with ⟨hfirst, hdeclares'⟩ | ⟨-, hfree'⟩
    · exact (first_iff hdeclares').1 hfirst i hlt hdeclares
    · exact hfree'.1 i hdeclares
  · rcases hj.declares hpj with ⟨-, hdeclares'⟩ | ⟨-, hfree'⟩
    · exact hfree.1 j hdeclares'
    · exact hfree'.2 i hlt hlate hpi

section

variable {g : Global}

/-- After an assignment every bound variable has a place. -/
theorem Ruled.exists_place (h : Ruled gs gs' i) (hg : gs'[i]? = some g)
    (hspace : g.space.isBound = true) : ∃ p, g.place = some p := by
  cases h with
  | other _ hspace' hg' =>
    cases hg.symm.trans hg'
    exact absurd hspace hspace'
  | keep hg₀ _ hfirst hg' =>
    cases hg.symm.trans hg'
    obtain ⟨p, hp, -⟩ := hfirst
    exact ⟨p, (declares_of_getElem? hg₀ hspace).1 hp⟩
  | move _ _ _ hg' _ =>
    cases hg.symm.trans hg'
    exact ⟨_, rfl⟩

/-- The first variable of a place stays as it is. -/
theorem Ruled.getElem?_of_first (h : Ruled gs gs' i) (hg : gs[i]? = some g) (hfirst : First gs i) :
    gs'[i]? = some g := by
  cases h with
  | other hg₀ _ hg' => rw [← hg, hg₀, hg']
  | keep hg₀ _ _ hg' => rw [← hg, hg₀, hg']
  | move _ _ hlate _ _ => exact absurd hfirst hlate

/-- A variable that is not bound stays as it is. -/
theorem Ruled.getElem?_of_not_bound (h : Ruled gs gs' i) (hg : gs[i]? = some g)
    (hspace : ¬ g.space.isBound = true) : gs'[i]? = some g := by
  cases h with
  | other hg₀ _ hg' => rw [← hg, hg₀, hg']
  | keep hg₀ hspace' _ _ =>
    cases hg.symm.trans hg₀
    exact absurd hspace' hspace
  | move hg₀ hspace' _ _ _ =>
    cases hg.symm.trans hg₀
    exact absurd hspace' hspace

/-- A variable that comes too late gets the least free binding of its group. -/
theorem Ruled.exists_isLeast (h : Ruled gs gs' i) (hg : gs[i]? = some g)
    (hspace : g.space.isBound = true) (hlate : ¬ First gs i) :
    ∃ b, gs'[i]? = some { g with place := some ⟨homeGroup g, b⟩ } ∧
      IsLeast {b | Free gs gs' i ⟨homeGroup g, b⟩} b := by
  cases h with
  | other hg₀ hspace' _ =>
    cases hg.symm.trans hg₀
    exact absurd hspace hspace'
  | keep _ _ hfirst _ => exact absurd hfirst hlate
  | move hg₀ _ _ hg' hleast =>
    cases hg.symm.trans hg₀
    exact ⟨_, hg', hleast⟩

end

/-- An assignment by the rules distributes the places. -/
theorem distributed_of_ruled {n : Nat} (hlength : gs'.length = gs.length)
    (hruled : ∀ i < gs.length, Ruled gs gs' i) (hcount : n = changes gs gs') :
    Distributed gs gs' n := by
  have hrule : ∀ i g, gs[i]? = some g → Ruled gs gs' i := fun i g hg =>
    hruled i (List.getElem?_eq_some_iff.1 hg).1
  have hrule' : ∀ i g, gs'[i]? = some g → Ruled gs gs' i := fun i g hg =>
    hruled i (hlength ▸ (List.getElem?_eq_some_iff.1 hg).1)
  have hapart : ∀ i j p, Declares gs' i p → Declares gs' j p → i = j := by
    intro i j p hi hj
    have hri : Ruled gs gs' i := hi.elim fun g hg => hrule' i g hg.1
    have hrj : Ruled gs gs' j := hj.elim fun g hg => hrule' j g hg.1
    rcases Nat.lt_trichotomy i j with hlt | heq | hgt
    · exact absurd hj (hri.not_declares_of_lt hrj hlt hi)
    · exact heq
    · exact absurd hi (hrj.not_declares_of_lt hri hgt hj)
  exact {
    length_eq := hlength
    placed := fun i g hg => (hrule' i g hg).exists_place hg
    apart := hapart
    kept := fun i g hg => (hrule i g hg).getElem?_of_first hg
    moved := fun i g hg => (hrule i g hg).exists_isLeast hg
    other := fun i g hg => (hrule i g hg).getElem?_of_not_bound hg
    count_eq := hcount }

theorem changes_self (gs : List Global) : changes gs gs = 0 := by
  induction gs with
  | nil => rfl
  | cons g gs ih => rw [changes_cons_self, ih]

/-- Where bound variables have places of their own, each is the first of its place, so that nothing
changes. -/
theorem Distributed.eq_self {n : Nat} (h : Distributed gs gs' n)
    (hplaced : ∀ (i : Nat) (g : Global), gs[i]? = some g → g.space.isBound = true → ∃ p, g.place = some p)
    (hapart : ∀ i j p, Declares gs i p → Declares gs j p → i = j) : gs' = gs ∧ n = 0 := by
  have heq : gs' = gs := by
    refine List.ext_getElem? fun i => ?_
    cases hg : gs[i]? with
    | none =>
      rw [List.getElem?_eq_none_iff] at hg ⊢
      rwa [h.length_eq]
    | some g =>
      by_cases hspace : g.space.isBound = true
      · obtain ⟨p, hp⟩ := hplaced i g hg hspace
        have hdeclares := (declares_of_getElem? hg hspace).2 hp
        have hfirst : First gs i :=
          ⟨p, hdeclares, fun j hj hj' => hj.ne (hapart j i p hj' hdeclares)⟩
        exact h.kept i g hg hfirst
      · exact h.other i g hg hspace
  refine ⟨heq, ?_⟩
  rw [h.count_eq, heq, changes_self]

end

end Assign

open Assign

/-- An assignment distributes the places. -/
theorem ShaderModule.distributed_assignBindings (m : ShaderModule)
    (hfew : (bound m.globals).length < UInt32.size) :
    Distributed m.globals m.assignBindings.1.globals m.assignBindings.2 := by
  obtain ⟨hnodup, hmem⟩ := keptPlaces_spec m.globals List.nodup_nil
  have hassigned := assigned_assignAll (keptPlaces m.globals []) (keptPlaces m.globals []) m.globals
  have hstart : Between m.globals [] [] m.globals (keptPlaces m.globals [])
      (keptPlaces m.globals []) :=
    ⟨rfl, rfl, hnodup, fun p => by simp [hmem], fun p => by simp [hmem], by omega⟩
  obtain ⟨hruled, hcount⟩ := hassigned.ruled hstart
  exact distributed_of_ruled hassigned.forall₂.length_eq.symm
    (fun i hi => hruled i (Nat.zero_le i) hi) hcount.symm

/-- An assignment leaves the first variable of every place where it is and gives each other bound one
the least free binding of its group, so that no two share a place. It counts the bound variables that
have another place than before, changes nothing else, and done again it changes nothing at all. -/
theorem ShaderModule.assignBindings_exact (m : ShaderModule)
    (hfew : (bound m.globals).length < UInt32.size) :
    Distributed m.globals m.assignBindings.1.globals m.assignBindings.2 ∧
      m.assignBindings.1.entryPoints = m.entryPoints ∧ m.assignBindings.1.types = m.types ∧
      m.assignBindings.1.assignBindings = (m.assignBindings.1, 0) := by
  have hfirst := m.distributed_assignBindings hfew
  have hassigned := assigned_assignAll (keptPlaces m.globals []) (keptPlaces m.globals []) m.globals
  have hfew' : (bound m.assignBindings.1.globals).length < UInt32.size :=
    lt_of_eq_of_lt hassigned.length_bound hfew
  obtain ⟨hglobals, hcount⟩ :=
    (m.assignBindings.1.distributed_assignBindings hfew').eq_self hfirst.placed hfirst.apart
  refine ⟨hfirst, rfl, rfl, Prod.ext ?_ hcount⟩
  exact congrArg (fun globals => ShaderModule.mk globals m.entryPoints m.types) hglobals

/-- A place that is declared twice, none at all, one that is declared further on, and a variable that
is not bound at the place that another one gets. -/
def mixed : ShaderModule where
  globals := [
    ⟨some "a", .handle, .basic none (.sampler false), some ⟨0, 0⟩⟩,
    ⟨some "b", .handle, .basic none (.sampler false), some ⟨0, 0⟩⟩,
    ⟨some "c", .handle, .basic none (.sampler false), none⟩,
    ⟨some "p", .priv, .basic none (.scalar ⟨.float, 4⟩), some ⟨0, 2⟩⟩,
    ⟨some "d", .uniform, .basic none (.scalar ⟨.float, 4⟩), some ⟨1, 0⟩⟩,
    ⟨some "e", .handle, .basic none (.sampler false), some ⟨0, 1⟩⟩]
  entryPoints := []

/-- A shared place, a missing one and one that is declared later, distributed. -/
theorem ShaderModule.assignBindings_exact_mixed :
    (bound mixed.globals).length < UInt32.size ∧
      mixed.assignBindings.1.globals.map Global.place =
        [some ⟨0, 0⟩, some ⟨0, 2⟩, some ⟨0, 3⟩, some ⟨0, 2⟩, some ⟨1, 0⟩, some ⟨0, 1⟩] ∧
      mixed.assignBindings.2 = 2 ∧
      Distributed mixed.globals mixed.assignBindings.1.globals 2 ∧
      mixed.assignBindings.1.assignBindings = (mixed.assignBindings.1, 0) := by
  have hfew : (bound mixed.globals).length < UInt32.size := by decide
  have hcount : mixed.assignBindings.2 = 2 := by decide
  obtain ⟨hdistributed, -, -, hagain⟩ := assignBindings_exact mixed hfew
  rw [hcount] at hdistributed
  exact ⟨hfew, by decide, hcount, hdistributed, hagain⟩

end ShaderBind
