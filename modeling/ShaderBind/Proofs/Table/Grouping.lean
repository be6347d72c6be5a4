import ShaderBind.Proofs.Layout.Insertion
import ShaderBind.Proofs.Table.Binding
import ShaderBind.Table.BindGroup
import Mathlib.Data.List.Nodup
import Mathlib.Data.List.Perm.Basic
import Mathlib.Data.UInt

/-!
# Grouping of binding tables

The bind groups of a table are a partition of it (`Grouped`): there is a group for every number up
to the highest in use, and a group holds what its entries of the table are read as, each once and in
the order of the bindings.

Entries are taken into their groups one by one. What is gathered from the entries so far (`Holds`)
is all that the next one depends on: it is added, or it is the first entry that cannot be, because an
earlier one has its place or because it cannot be read (`take_outcome`). Since groups are counted
before entries are taken, no entry is in a group that is not there. So grouping stops only at groups
that cannot be counted by a word (`ofTable_eq_error_iff`), and a table is refused only for the first
such entry (`ofTable_grouped`).
-/

namespace ShaderBind

theorem StageSet.mem_of_subset {a b : StageSet} (h : a.subset b = true) {s : Stage}
    (hs : a.mem s = true) : b.mem s = true := by
  have hmask : a.mask &&& b.mask = a.mask := by simpa [StageSet.subset] using h
  have := congrArg (·.getLsbD s.index) hmask
  simp only [BitVec.getLsbD_and] at this
  simp only [StageSet.mem] at hs ⊢
  rw [hs, Bool.true_and] at this
  exact this

/-! ## One entry -/

/-- The entry is seen by a stage. -/
def BindGroupEntry.VisibleTo (stage : Stage) (e : BindGroupEntry) : Prop :=
  ∃ w ∈ e.visibility, w.stage = stage

/-- The error says of one resource that it has no entry. -/
def BindGroupError.IsAbout (resource : String) : BindGroupError → Prop
  | notWebGpu name => name = resource
  | unsupportedResource name _ => name = resource
  | unsupportedStages name => name = resource
  | unsupportedDimension name _ => name = resource
  | unsupportedFormat name _ => name = resource
  | duplicateBinding .. => False

namespace BindGroupEntry

variable {t : TableEntry} {e : BindGroupEntry} {err : BindGroupError}

/-- A bind group entry is visible in the stages of its table entry. -/
theorem mem_visibility? {ws : List WebGpuStage} (h : visibility? t = .ok ws) (stage : Stage) :
    (∃ w ∈ ws, w.stage = stage) ↔ t.stages.mem stage = true := by
  unfold visibility? at h
  split at h
  next hsubset =>
    cases h
    constructor
    · rintro ⟨w, hw, rfl⟩
      exact (List.mem_filter.1 hw).2
    · intro hmem
      have hknown := StageSet.mem_of_subset hsubset hmem
      have hw : ∃ w ∈ WebGpuStage.all, w.stage = stage := by
        revert hknown
        cases stage <;> decide
      obtain ⟨w, hw, rfl⟩ := hw
      exact ⟨w, List.mem_filter.2 ⟨hw, hmem⟩, rfl⟩
  next => cases h

/-- An entry of a bind group has the binding, the size and the stages of its table entry. -/
theorem ofTableEntry_eq_ok (h : ofTableEntry t = .ok e) :
    e.binding = t.place.binding ∧
      e.count = (if t.arraySize > 1 then some t.arraySize else none) ∧
      ∀ stage, e.VisibleTo stage ↔ t.stages.mem stage = true := by
  unfold ofTableEntry at h
  split at h
  · obtain ⟨type, -, h⟩ := bind_eq_ok_iff.1 h
    obtain ⟨ws, hws, h⟩ := bind_eq_ok_iff.1 h
    cases h
    exact ⟨rfl, rfl, mem_visibility? hws⟩
  · cases h

/-- A dimension that no view has is refused by the name of the entry. -/
theorem isAbout_of_ofDimension {name : String} {d : Option Dimension}
    (h : ViewDimension.ofDimension name d = .error err) : err.IsAbout name := by
  unfold ViewDimension.ofDimension at h
  split at h <;> cases h
  rfl

theorem isAbout_of_texture {view : Option Dimension} {samples : TextureSamples}
    {multisampled : Bool} (h : texture t view samples multisampled = .error err) :
    err.IsAbout t.name :=
  isAbout_of_ofDimension (bind_pure_eq_error_iff.1 h)

theorem isAbout_of_storageTexture {view : Option Dimension} {format : Option TexelFormat}
    {access : TextureAccess} (h : storageTexture t view format access = .error err) :
    err.IsAbout t.name := by
  rcases bind_eq_error_iff.1 h with h | ⟨_, -, h⟩
  · unfold format? at h
    split at h <;> cases h
    rfl
  · exact isAbout_of_ofDimension (bind_pure_eq_error_iff.1 h)

/-- Whatever is wrong with a type, the error has the name of the entry. -/
theorem isAbout_of_boundType {bindingType : BindingType} {view : Option Dimension}
    {format : Option TexelFormat} (h : boundType t bindingType view format = .error err) :
    err.IsAbout t.name := by
  unfold boundType at h
  split at h <;>
    first
    | cases h
    | exact isAbout_of_texture h
    | exact isAbout_of_storageTexture h
    | (split at h <;> cases h; rfl)

/-- An entry that cannot be read is named in the error. -/
theorem isAbout_of_ofTableEntry (h : ofTableEntry t = .error err) : err.IsAbout t.name := by
  unfold ofTableEntry at h
  split at h
  · rcases bind_eq_error_iff.1 h with h | ⟨_, -, h⟩
    · exact isAbout_of_boundType h
    · have hvisibility := bind_pure_eq_error_iff.1 h
      unfold visibility? at hvisibility
      split at hvisibility <;> cases hvisibility
      rfl
  · cases h
    rfl

end BindGroupEntry

/-! ## The number of groups -/

namespace BindingTable

/-- One more than each group is a word. -/
def GroupsFit (table : BindingTable) : Prop :=
  ∀ t ∈ table, t.place.group.toNat + 1 < UInt32.size

/-- The number is one more than the highest group of the table, zero if the table is empty. -/
structure Extent (table : BindingTable) (n : Nat) : Prop where
  lt : ∀ t ∈ table, t.place.group.toNat < n
  attained : n = 0 ∨ ∃ t ∈ table, t.place.group.toNat + 1 = n

/-- The entries of a group, in the order of the table. -/
def inGroup (table : BindingTable) (i : Nat) : List TableEntry :=
  table.filter fun t => t.place.group.toNat = i

variable {table : BindingTable}

/-- No extent of a table is greater than another. -/
theorem Extent.le {m n : Nat} (hm : Extent table m) (hn : Extent table n) : m ≤ n := by
  rcases hm.attained with rfl | ⟨t, ht, rfl⟩
  · exact Nat.zero_le n
  · exact hn.lt t ht

theorem Extent.eq {m n : Nat} (hm : Extent table m) (hn : Extent table n) : m = n :=
  Nat.le_antisymm (hm.le hn) (hn.le hm)

/-- Entries of one group that have one binding are at one place. -/
theorem place_eq_of_group_eq {t u : TableEntry}
    (hgroup : t.place.group.toNat = u.place.group.toNat)
    (hbinding : t.place.binding = u.place.binding) : t.place = u.place := by
  calc t.place = ⟨t.place.group, t.place.binding⟩ := rfl
    _ = ⟨u.place.group, u.place.binding⟩ := by rw [UInt32.toNat_inj.1 hgroup, hbinding]

theorem mem_inGroup {i : Nat} {t : TableEntry} :
    t ∈ table.inGroup i ↔ t ∈ table ∧ t.place.group.toNat = i := by
  simp [inGroup]

theorem inGroup_append_singleton (table : BindingTable) (t : TableEntry) (i : Nat) :
    inGroup (table ++ [t]) i =
      if t.place.group.toNat = i then table.inGroup i ++ [t] else table.inGroup i := by
  unfold inGroup
  split <;> simp [*]

end BindingTable

namespace BindGroup

open BindingTable (GroupsFit Extent)

section

variable {table : BindingTable}

/-- The count after one more entry. -/
theorem count_step {t : TableEntry} (h : t.place.group.toNat + 1 < UInt32.size) (a : UInt32) :
    ∃ b : UInt32, b.toNat = max a.toNat (t.place.group.toNat + 1) ∧
      (addWords t.place.group 1 >>= fun n => pure (max a n)) = .ok b := by
  obtain ⟨n, hn⟩ := exists_addWords_iff.2 (show t.place.group.toNat + (1 : UInt32).toNat < _ from h)
  refine ⟨max a n, ?_, bind_eq_ok_iff.2 ⟨n, hn, rfl⟩⟩
  rw [UInt32.toNat_max, ← addWords_eq_ok_iff.1 hn]
  rfl

/-- Groups that can be counted are counted up to the last that is used. -/
theorem groupCount_eq_ok (h : GroupsFit table) :
    ∃ n, groupCount table = .ok n ∧ Extent table n.toNat := by
  -- the count so far is a bound that one of the entries, or the start, attains
  have hrun : ∀ (es : List TableEntry) (a : UInt32), GroupsFit es →
      ∃ n : UInt32, es.foldlM (fun n e => return max n (← addWords e.place.group 1)) a =
          (.ok n : Except Crash UInt32) ∧ a.toNat ≤ n.toNat ∧
        (∀ t ∈ es, t.place.group.toNat < n.toNat) ∧
        (n = a ∨ ∃ t ∈ es, t.place.group.toNat + 1 = n.toNat) := by
    intro es
    induction es with
    | nil => exact fun a _ => ⟨a, rfl, Nat.le_refl _, by simp, .inl rfl⟩
    | cons t es ih =>
      intro a hfit
      obtain ⟨ht, hes⟩ := List.forall_mem_cons.1 hfit
      obtain ⟨b, hb, hstep⟩ := count_step ht a
      obtain ⟨n, hn, hle, hlt, hattained⟩ := ih b hes
      refine ⟨n, ?_, by omega, List.forall_mem_cons.2 ⟨by omega, hlt⟩, ?_⟩
      · rw [List.foldlM_cons, hstep]
        exact hn
      · rcases hattained with rfl | ⟨u, hu, hgroup⟩
        · rcases Nat.le_total (t.place.group.toNat + 1) a.toNat with hmax | hmax
          · exact .inl (UInt32.toNat_inj.1 (hb.trans (Nat.max_eq_left hmax)))
          · exact .inr ⟨t, List.mem_cons_self, (hb.trans (Nat.max_eq_right hmax)).symm⟩
        · exact .inr ⟨u, List.mem_cons_of_mem _ hu, hgroup⟩
  obtain ⟨n, hn, -, hlt, hattained⟩ := hrun table 0 h
  exact ⟨n, hn, hlt, hattained.imp_left fun hzero => by rw [hzero]; rfl⟩

/-- One group too many breaks the count off. -/
theorem groupCount_eq_error (h : ¬ GroupsFit table) : groupCount table = .error .addOverflow := by
  have hrun : ∀ (es : List TableEntry) (a : UInt32), ¬ GroupsFit es →
      es.foldlM (fun n e => return max n (← addWords e.place.group 1)) a =
        (.error .addOverflow : Except Crash UInt32) := by
    intro es
    induction es with
    | nil => exact fun _ hfit => absurd (List.forall_mem_nil _) hfit
    | cons t es ih =>
      intro a hfit
      rw [List.foldlM_cons]
      by_cases ht : t.place.group.toNat + 1 < UInt32.size
      · obtain ⟨b, -, hstep⟩ := count_step ht a
        rw [hstep]
        exact ih b fun hes => hfit (List.forall_mem_cons.2 ⟨ht, hes⟩)
      · have hsum : addWords t.place.group 1 = .error .addOverflow := if_neg ht
        rw [hsum]
        rfl
  exact hrun table 0 h

end

/-! ## Entries taken one by one -/

/-- The entries can stand in bind groups together: each can be read, and no two are at one place. -/
structure Admissible (es : List TableEntry) : Prop where
  readable : ∀ t ∈ es, ∃ e, BindGroupEntry.ofTableEntry t = .ok e
  apart : (es.map TableEntry.place).Nodup

/-- Why an entry cannot be added to others, and what is said of it: one of them has its place, or
it cannot be read. -/
inductive Refused (es : List TableEntry) (t : TableEntry) : BindGroupError → Prop
  | taken {first : TableEntry} (hfirst : first ∈ es) (hplace : first.place = t.place) :
      Refused es t (.duplicateBinding first.name t.name t.place)
  | unreadable {err : BindGroupError} (hfree : ∀ u ∈ es, u.place ≠ t.place)
      (herr : BindGroupEntry.ofTableEntry t = .error err) (habout : err.IsAbout t.name) :
      Refused es t err

section

variable {es : List TableEntry} {t : TableEntry} {err : BindGroupError}

/-- One entry more: its place is new and it has a bind group entry. -/
theorem admissible_append_singleton :
    Admissible (es ++ [t]) ↔
      Admissible es ∧ (∀ u ∈ es, u.place ≠ t.place) ∧
        ∃ e, BindGroupEntry.ofTableEntry t = .ok e := by
  have hapart : ((es ++ [t]).map TableEntry.place).Nodup ↔
      (es.map TableEntry.place).Nodup ∧ ∀ u ∈ es, u.place ≠ t.place := by
    rw [List.map_append, List.nodup_append]
    simp
  constructor
  · rintro ⟨hreadable, hnodup⟩
    rw [List.forall_mem_append, List.forall_mem_singleton] at hreadable
    obtain ⟨hnodup, hfree⟩ := hapart.1 hnodup
    exact ⟨⟨hreadable.1, hnodup⟩, hfree, hreadable.2⟩
  · rintro ⟨⟨hreadable, hnodup⟩, hfree, hentry⟩
    exact ⟨List.forall_mem_append.2 ⟨hreadable, List.forall_mem_singleton.2 hentry⟩,
      hapart.2 ⟨hnodup, hfree⟩⟩

/-- The front of admissible entries is admissible. -/
theorem Admissible.of_append {fs : List TableEntry} (h : Admissible (es ++ fs)) :
    Admissible es where
  readable t ht := h.readable t (List.mem_append_left _ ht)
  apart := by
    have hapart := h.apart
    rw [List.map_append] at hapart
    exact (List.nodup_append.1 hapart).1

/-- An entry that is refused makes a table that is not admissible. -/
theorem Refused.not_admissible (h : Refused es t err) : ¬ Admissible (es ++ [t]) := by
  intro hadmissible
  obtain ⟨-, hfree, e, he⟩ := admissible_append_singleton.1 hadmissible
  cases h with
  | taken hfirst hplace => exact hfree _ hfirst hplace
  | unreadable _ herr _ => cases herr.symm.trans he

/-- Only one thing can be said of an entry that cannot be added. -/
theorem Refused.eq {err' : BindGroupError} (hes : Admissible es) (h : Refused es t err)
    (h' : Refused es t err') : err = err' := by
  cases h with
  | @taken first hfirst hplace =>
    cases h' with
    | taken hfirst' hplace' =>
      rw [List.inj_on_of_nodup_map hes.apart hfirst hfirst' (hplace.trans hplace'.symm)]
    | unreadable hfree _ _ => exact absurd hplace (hfree first hfirst)
  | unreadable hfree herr _ =>
    cases h' with
    | @taken first hfirst hplace => exact absurd hplace (hfree first hfirst)
    | unreadable _ herr' _ => exact Except.error.inj (herr.symm.trans herr')

end

/-- What is gathered from entries: each stands in its group, as it is read, and owns its binding
there. -/
structure Gathered.Holds (n : Nat) (es : List TableEntry) (g : Gathered) : Prop where
  admissible : Admissible es
  length_groups : g.groups.length = n
  length_owners : g.owners.length = n
  numbered : ∀ (i : Nat) (b : BindGroup), g.groups[i]? = some b → b.group = i
  entries : ∀ (i : Nat) (b : BindGroup), g.groups[i]? = some b →
    b.entries.map Except.ok = (BindingTable.inGroup es i).map BindGroupEntry.ofTableEntry
  owners : ∀ (i : Nat) (os : List (UInt32 × String)), g.owners[i]? = some os →
    os = (BindingTable.inGroup es i).map fun t => (t.place.binding, t.name)

namespace Gathered

variable {n : Nat} {es : List TableEntry} {g : Gathered} {t : TableEntry}

/-- Before the first entry all groups are empty. -/
theorem holds_start (n : Nat) : (start n).Holds n [] := by
  have hgroup : ∀ (i : Nat) (b : BindGroup), (start n).groups[i]? = some b → b = ⟨i, []⟩ := by
    intro i b hb
    rw [start, List.getElem?_map, Option.map_eq_some_iff] at hb
    obtain ⟨k, hk, rfl⟩ := hb
    obtain ⟨_, rfl⟩ := List.getElem?_eq_some_iff.1 hk
    rw [List.getElem_range]
  refine ⟨⟨by simp, by simp⟩, by simp [start], by simp [start], fun i b hb => ?_, fun i b hb => ?_,
    fun i os hos => ?_⟩
  · rw [hgroup i b hb]
  · rw [hgroup i b hb]
    rfl
  · exact List.eq_of_mem_replicate (List.mem_of_getElem? hos)

/-- The owners of a group's bindings are its entries so far. -/
theorem Holds.find?_owners (h : g.Holds n es) {os : List (UInt32 × String)}
    (hos : g.owners[t.place.group.toNat]? = some os) :
    (∀ o, os.find? (fun o => o.1 = t.place.binding) = some o →
      ∃ first ∈ es, first.place = t.place ∧ first.name = o.2) ∧
    (os.find? (fun o => o.1 = t.place.binding) = none → ∀ u ∈ es, u.place ≠ t.place) := by
  have howners := h.owners _ _ hos
  constructor
  · intro o ho
    have hmem := List.mem_of_find?_eq_some ho
    rw [howners] at hmem
    obtain ⟨first, hfirst, rfl⟩ := List.mem_map.1 hmem
    obtain ⟨hes, hgroup⟩ := BindingTable.mem_inGroup.1 hfirst
    have hbinding : first.place.binding = t.place.binding := by simpa using List.find?_some ho
    exact ⟨first, hes, BindingTable.place_eq_of_group_eq hgroup hbinding, rfl⟩
  · intro hnone u hu hplace
    have hmem : u ∈ BindingTable.inGroup es t.place.group.toNat :=
      BindingTable.mem_inGroup.2 ⟨hu, by rw [hplace]⟩
    have := List.find?_eq_none.1 hnone _ (howners ▸ List.mem_map_of_mem hmem)
    simp [hplace] at this

theorem eq_or_of_getElem?_set {α : Type} {xs : List α} {i k : Nat} {x y : α}
    (h : (xs.set i x)[k]? = some y) : i = k ∧ y = x ∨ i ≠ k ∧ xs[k]? = some y := by
  rw [List.getElem?_set] at h
  by_cases hk : i = k
  · rw [if_pos hk, Option.ite_none_right_eq_some] at h
    exact .inl ⟨hk, (Option.some.inj h.2).symm⟩
  · rw [if_neg hk] at h
    exact .inr ⟨hk, h⟩

/-- What is gathered when an entry is added to its group. -/
theorem Holds.add (h : g.Holds n es) {os : List (UInt32 × String)} {b : BindGroup}
    {e : BindGroupEntry} (hos : g.owners[t.place.group.toNat]? = some os)
    (hb : g.groups[t.place.group.toNat]? = some b) (hfree : ∀ u ∈ es, u.place ≠ t.place)
    (he : BindGroupEntry.ofTableEntry t = .ok e) :
    Holds n (es ++ [t])
      { groups := g.groups.set t.place.group.toNat { b with entries := b.entries ++ [e] }
        owners := g.owners.set t.place.group.toNat (os ++ [(t.place.binding, t.name)]) } where
  admissible := admissible_append_singleton.2 ⟨h.admissible, hfree, e, he⟩
  length_groups := by rw [List.length_set, h.length_groups]
  length_owners := by rw [List.length_set, h.length_owners]
  numbered i c hc := by
    rcases eq_or_of_getElem?_set hc with ⟨rfl, rfl⟩ | ⟨-, hc⟩
    · exact h.numbered _ b hb
    · exact h.numbered i c hc
  entries i c hc := by
    rw [BindingTable.inGroup_append_singleton]
    rcases eq_or_of_getElem?_set hc with ⟨rfl, rfl⟩ | ⟨hi, hc⟩
    · rw [if_pos rfl, List.map_append, List.map_append, h.entries _ b hb, List.map_singleton,
        List.map_singleton, he]
    · rw [if_neg hi]
      exact h.entries i c hc
  owners i os' hos' := by
    rw [BindingTable.inGroup_append_singleton]
    rcases eq_or_of_getElem?_set hos' with ⟨rfl, rfl⟩ | ⟨hi, hos'⟩
    · rw [if_pos rfl, List.map_append, ← h.owners _ os hos, List.map_singleton]
    · rw [if_neg hi]
      exact h.owners i os' hos'

/-- What did not crash can be left out of a sequence. -/
theorem lift_ok_bind {ε δ α β : Type} (a : α) (f : α → ExceptT ε (Except δ) β) :
    (ExceptT.lift (.ok a) >>= f) = f a :=
  rfl

/-- An entry of a group that is there is added, or it is told why it cannot be. -/
theorem take_outcome (h : g.Holds n es) (hlt : t.place.group.toNat < n) :
    (∃ g', (g.take t).run = .ok (.ok g') ∧ g'.Holds n (es ++ [t])) ∨
      ∃ err, (g.take t).run = .ok (.error err) ∧ Refused es t err := by
  obtain ⟨os, hos⟩ : ∃ os, g.owners[t.place.group.toNat]? = some os :=
    ⟨_, List.getElem?_eq_getElem (h.length_owners ▸ hlt)⟩
  obtain ⟨b, hb⟩ : ∃ b, g.groups[t.place.group.toNat]? = some b :=
    ⟨_, List.getElem?_eq_getElem (h.length_groups ▸ hlt)⟩
  obtain ⟨htaken, hfree⟩ := h.find?_owners hos
  unfold take
  simp only [itemAt_eq_ok_iff.2 hos, itemAt_eq_ok_iff.2 hb, lift_ok_bind]
  cases hfind : os.find? fun o => o.1 = t.place.binding with
  | some o =>
    obtain ⟨first, hfirst, hplace, hname⟩ := htaken o hfind
    refine .inr ⟨_, ?_, .taken hfirst hplace⟩
    rw [hname]
    rfl
  | none =>
    cases he : BindGroupEntry.ofTableEntry t with
    | ok e => exact .inl ⟨_, rfl, h.add hos hb (hfree hfind) he⟩
    | error err =>
      have habout := BindGroupEntry.isAbout_of_ofTableEntry he
      exact .inr ⟨err, rfl, .unreadable (hfree hfind) he habout⟩

/-- A sequence whose first part succeeds is its second part. -/
theorem run_bind_of_run_ok {ε δ α β : Type} {x : ExceptT ε (Except δ) α}
    {f : α → ExceptT ε (Except δ) β} {a : α} (h : x.run = .ok (.ok a)) :
    (x >>= f).run = (f a).run := by
  rw [ExceptT.run_bind, h]
  rfl

/-- A sequence ends with the error of its first part. -/
theorem run_bind_of_run_error {ε δ α β : Type} {x : ExceptT ε (Except δ) α}
    {f : α → ExceptT ε (Except δ) β} {e : ε} (h : x.run = .ok (.error e)) :
    (x >>= f).run = .ok (.error e) := by
  rw [ExceptT.run_bind, h]
  rfl

end Gathered

/-- The first of the entries that cannot be added to those before it, and what is said of it. -/
def FirstRefused (es : List TableEntry) (err : BindGroupError) : Prop :=
  ∃ before t after, es = before ++ t :: after ∧ Admissible before ∧ Refused before t err

/-- Entries of groups that are there are all added, or the first is told that cannot be. -/
theorem Gathered.run_outcome {n : Nat} {es rest : List TableEntry} {g : Gathered}
    (h : g.Holds n es) (hlt : ∀ t ∈ rest, t.place.group.toNat < n) :
    (∃ g', (rest.foldlM take g).run = .ok (.ok g') ∧ g'.Holds n (es ++ rest)) ∨
      ∃ err, (rest.foldlM take g).run = .ok (.error err) ∧ FirstRefused (es ++ rest) err := by
  induction rest generalizing es g with
  | nil => exact .inl ⟨g, rfl, by rwa [List.append_nil]⟩
  | cons t rest ih =>
    obtain ⟨ht, hrest⟩ := List.forall_mem_cons.1 hlt
    rw [List.foldlM_cons, List.append_cons]
    rcases take_outcome h ht with ⟨g', hrun, hg'⟩ | ⟨err, hrun, hrefused⟩
    · rw [run_bind_of_run_ok hrun]
      exact ih hg' hrest
    · exact .inr ⟨err, run_bind_of_run_error hrun, es, t, rest, (List.append_cons ..).symm,
        h.admissible, hrefused⟩

section

variable {es : List TableEntry} {err err' : BindGroupError}

/-- Where an entry is refused the whole table is not admissible. -/
theorem FirstRefused.not_admissible (h : FirstRefused es err) : ¬ Admissible es := by
  obtain ⟨before, t, after, rfl, -, hrefused⟩ := h
  rw [List.append_cons]
  exact fun hes => hrefused.not_admissible hes.of_append

/-- Of two entries of a row the one that cannot be added does not stand among those that the other
is added to. -/
theorem Refused.length_le {before before' after after' : List TableEntry} {t t' : TableEntry}
    (h : Refused before t err) (hbefore' : Admissible before')
    (hsplit : before ++ t :: after = before' ++ t' :: after') : before'.length ≤ before.length := by
  by_contra hlt
  obtain ⟨between, rfl⟩ : before ++ [t] <+: before' :=
    List.prefix_of_prefix_length_le ⟨after, (List.append_cons ..).symm⟩ ⟨t' :: after', hsplit.symm⟩
      (by rw [List.length_append, List.length_singleton]; omega)
  exact h.not_admissible hbefore'.of_append

/-- Only one error is that of the first entry that is refused. -/
theorem FirstRefused.eq (h : FirstRefused es err) (h' : FirstRefused es err') : err = err' := by
  obtain ⟨before, t, after, rfl, hbefore, hrefused⟩ := h
  obtain ⟨before', t', after', hsplit, hbefore', hrefused'⟩ := h'
  have hlength := Nat.le_antisymm (hrefused'.length_le hbefore hsplit.symm)
    (hrefused.length_le hbefore' hsplit)
  obtain ⟨rfl, hrest⟩ := List.append_inj hsplit hlength
  cases hrest
  exact hrefused.eq hbefore hrefused'

end

/-! ## The bind groups of a table -/

/-- The groups are a partition of the table: they are numbered from zero to the highest group in
use, and the entries of each are what the table's entries of that group are read as, each once, in
the order of the bindings. -/
structure Grouped (table : BindingTable) (groups : List BindGroup) : Prop where
  extent : Extent table groups.length
  numbered : ∀ (i : Nat) (g : BindGroup), groups[i]? = some g → g.group = i
  ordered : ∀ g ∈ groups, g.entries.Pairwise fun a b => a.binding < b.binding
  entries : ∀ (i : Nat) (g : BindGroup), groups[i]? = some g →
    (g.entries.map Except.ok).Perm ((table.inGroup i).map BindGroupEntry.ofTableEntry)

section

variable {table : BindingTable} {groups groups' : List BindGroup}

/-- Entries of bind groups have the bindings of those that they are read from. -/
theorem perm_bindings {es : List TableEntry} {entries : List BindGroupEntry}
    (h : (entries.map Except.ok).Perm (es.map BindGroupEntry.ofTableEntry)) :
    (entries.map BindGroupEntry.binding).Perm (es.map fun t => t.place.binding) := by
  let binding (r : Except BindGroupError BindGroupEntry) : UInt32 :=
    (r.toOption.map BindGroupEntry.binding).getD 0
  have hes : es.map (binding ∘ BindGroupEntry.ofTableEntry) = es.map fun t => t.place.binding := by
    refine List.map_congr_left fun t ht => ?_
    obtain ⟨e, -, he⟩ := List.mem_map.1 (h.mem_iff.2 (List.mem_map_of_mem ht))
    rw [Function.comp_apply, ← he]
    exact (BindGroupEntry.ofTableEntry_eq_ok he.symm).1
  have hmap := h.map binding
  rwa [List.map_map, List.map_map, hes] at hmap

/-- The entries of one group have bindings of their own. -/
theorem Admissible.nodup_bindings (h : Admissible table) (i : Nat) :
    ((table.inGroup i).map fun t => t.place.binding).Nodup := by
  refine List.Nodup.map_on (fun t ht u hu hbinding => ?_) ((List.Nodup.of_map _ h.apart).filter _)
  obtain ⟨ht, hti⟩ := BindingTable.mem_inGroup.1 ht
  obtain ⟨hu, hui⟩ := BindingTable.mem_inGroup.1 hu
  exact List.inj_on_of_nodup_map h.apart ht hu
    (BindingTable.place_eq_of_group_eq (hti.trans hui.symm) hbinding)

/-- Every entry of the table has its group. -/
theorem Grouped.exists_group (h : Grouped table groups) {t : TableEntry} (ht : t ∈ table) :
    ∃ g, groups[t.place.group.toNat]? = some g :=
  ⟨_, List.getElem?_eq_getElem (h.extent.lt t ht)⟩

/-- Every entry of the table is found in its group. -/
theorem Grouped.exists_entry (h : Grouped table groups) {t : TableEntry} (ht : t ∈ table)
    {g : BindGroup} (hg : groups[t.place.group.toNat]? = some g) :
    ∃ e ∈ g.entries, BindGroupEntry.ofTableEntry t = .ok e := by
  have hmem : BindGroupEntry.ofTableEntry t ∈ g.entries.map Except.ok :=
    (h.entries _ g hg).mem_iff.2 (List.mem_map_of_mem (BindingTable.mem_inGroup.2 ⟨ht, rfl⟩))
  obtain ⟨e, he, hread⟩ := List.mem_map.1 hmem
  exact ⟨e, he, hread.symm⟩

/-- A table that was grouped is admissible. -/
theorem Grouped.admissible (h : Grouped table groups) : Admissible table where
  readable t ht := by
    obtain ⟨g, hg⟩ := h.exists_group ht
    obtain ⟨e, -, hread⟩ := h.exists_entry ht hg
    exact ⟨e, hread⟩
  apart := by
    refine List.pairwise_map.2 (List.pairwise_iff_forall_sublist.2 fun {t u} hsub hplace => ?_)
    obtain ⟨g, hg⟩ := h.exists_group (hsub.subset List.mem_cons_self)
    -- both stand in the same group, with one binding
    have hboth : [t, u].Sublist (table.inGroup t.place.group.toNat) := by
      simpa [BindingTable.inGroup, hplace] using
        hsub.filter fun v => v.place.group.toNat = t.place.group.toNat
    have hordered := h.ordered g (List.mem_of_getElem? hg)
    have hnodup : (g.entries.map BindGroupEntry.binding).Nodup :=
      List.pairwise_map.2 (hordered.imp fun hlt => UInt32.ne_of_lt hlt)
    have hbindings := (perm_bindings (h.entries _ g hg)).nodup_iff.1 hnodup
    have hpair := hbindings.sublist (hboth.map fun v => v.place.binding)
    simp [hplace] at hpair

/-- The groups of a table are determined by it. -/
theorem Grouped.eq (h : Grouped table groups) (h' : Grouped table groups') : groups = groups' := by
  refine List.ext_getElem (h.extent.eq h'.extent) fun i hi hi' => ?_
  have hg := List.getElem?_eq_getElem hi
  have hg' := List.getElem?_eq_getElem hi'
  generalize groups[i] = g at hg
  generalize groups'[i] = g' at hg'
  have hperm : g.entries.Perm g'.entries := by
    have hok : Function.Injective (Except.ok (ε := BindGroupError) (α := BindGroupEntry)) :=
      fun _ _ => Except.ok.inj
    exact (List.map_perm_map_iff hok).1 ((h.entries i g hg).trans (h'.entries i g' hg').symm)
  have hentries : g.entries = g'.entries :=
    hperm.eq_of_pairwise (fun a b _ _ hab hba => absurd hba (UInt32.lt_asymm hab))
      (h.ordered g (List.mem_of_getElem? hg)) (h'.ordered g' (List.mem_of_getElem? hg'))
  calc g = ⟨g.group, g.entries⟩ := rfl
    _ = ⟨g'.group, g'.entries⟩ := by rw [h.numbered i g hg, h'.numbered i g' hg', hentries]

/-- Sorting leaves the entries as they are, but for their order. -/
theorem perm_sorted (g : BindGroup) : g.sorted.entries.Perm g.entries :=
  List.mergeSort_perm _ _

/-- Entries with bindings of their own are strictly in order once they are sorted. -/
theorem ordered_sorted {g : BindGroup} (h : (g.entries.map BindGroupEntry.binding).Nodup) :
    g.sorted.entries.Pairwise fun a b => a.binding < b.binding := by
  have hle : g.sorted.entries.Pairwise fun a b => decide (a.binding ≤ b.binding) = true :=
    List.pairwise_mergeSort (fun a b c => by simpa using UInt32.le_trans)
      (fun a b => by simpa using UInt32.le_total ..) _
  have hne : g.sorted.entries.Pairwise fun a b => a.binding ≠ b.binding :=
    List.pairwise_map.1 (((perm_sorted g).map _).nodup_iff.2 h)
  refine (hle.and hne).imp fun hab => ?_
  exact UInt32.lt_of_le_of_ne (of_decide_eq_true hab.1) hab.2

/-- What was gathered is the grouping of the table, once it is sorted. -/
theorem Gathered.Holds.grouped {n : Nat} {g : Gathered} (h : g.Holds n table)
    (hn : Extent table n) : Grouped table (g.groups.map sorted) where
  extent := by rwa [List.length_map, h.length_groups]
  numbered i b hb := by
    rw [List.getElem?_map, Option.map_eq_some_iff] at hb
    obtain ⟨c, hc, rfl⟩ := hb
    exact h.numbered i c hc
  ordered b hb := by
    obtain ⟨c, hc, rfl⟩ := List.mem_map.1 hb
    obtain ⟨i, hi⟩ := List.mem_iff_getElem?.1 hc
    refine ordered_sorted ((perm_bindings (.of_eq (h.entries i c hi))).nodup_iff.2 ?_)
    exact h.admissible.nodup_bindings i
  entries i b hb := by
    rw [List.getElem?_map, Option.map_eq_some_iff] at hb
    obtain ⟨c, hc, rfl⟩ := hb
    exact ((perm_sorted c).map _).trans (.of_eq (h.entries i c hc))

/-- A table whose groups can be counted is grouped, or its first faulty entry is told. -/
theorem ofTable_outcome (hfit : GroupsFit table) :
    (∃ groups, ofTable table = .ok (.ok groups) ∧ Grouped table groups) ∨
      ∃ err, ofTable table = .ok (.error err) ∧ FirstRefused table err := by
  obtain ⟨n, hn, hextent⟩ := groupCount_eq_ok hfit
  unfold ofTable
  rw [hn]
  rcases Gathered.run_outcome (Gathered.holds_start n.toNat) hextent.lt with
    ⟨g, hrun, hg⟩ | ⟨err, hrun, hfirst⟩
  · refine .inl ⟨_, bind_eq_ok_iff.2 ⟨n, rfl, bind_eq_ok_iff.2 ⟨_, hrun, rfl⟩⟩, hg.grouped hextent⟩
  · refine .inr ⟨err, bind_eq_ok_iff.2 ⟨n, rfl, bind_eq_ok_iff.2 ⟨_, hrun, rfl⟩⟩, hfirst⟩

/-- Nothing else stops the grouping of a table than a group that is no word when one is added. -/
theorem ofTable_eq_error_iff {c : Crash} :
    ofTable table = .error c ↔ ¬ GroupsFit table ∧ c = .addOverflow := by
  by_cases hfit : GroupsFit table
  · refine iff_of_false (fun hcrash => ?_) fun h => h.1 hfit
    rcases ofTable_outcome hfit with ⟨_, hok, -⟩ | ⟨_, hok, -⟩ <;> cases hcrash.symm.trans hok
  · have hcrash : ofTable table = .error .addOverflow :=
      bind_eq_error_iff.2 (.inl (groupCount_eq_error hfit))
    rw [hcrash, Except.error.injEq]
    exact ⟨fun h => ⟨hfit, h.symm⟩, fun h => h.2.symm⟩

theorem groupsFit_of_ofTable {r : Except BindGroupError (List BindGroup)}
    (h : ofTable table = .ok r) : GroupsFit table := by
  by_contra hfit
  cases h.symm.trans (ofTable_eq_error_iff.2 ⟨hfit, rfl⟩)

/-- Groups come out exactly when they can be counted and the table has a grouping. -/
theorem ofTable_eq_ok_iff :
    ofTable table = .ok (.ok groups) ↔ GroupsFit table ∧ Grouped table groups := by
  constructor
  · intro h
    have hfit := groupsFit_of_ofTable h
    rcases ofTable_outcome hfit with ⟨_, hok, hgrouped⟩ | ⟨_, hok, -⟩ <;> cases h.symm.trans hok
    exact ⟨hfit, hgrouped⟩
  · rintro ⟨hfit, hgroups⟩
    rcases ofTable_outcome hfit with ⟨_, hok, hgrouped⟩ | ⟨_, -, hfirst⟩
    · rw [hok, hgrouped.eq hgroups]
    · exact absurd hgroups.admissible hfirst.not_admissible

/-- An error comes out exactly when an entry is refused, and it is that of the first. -/
theorem ofTable_eq_refused_iff {err : BindGroupError} :
    ofTable table = .ok (.error err) ↔ GroupsFit table ∧ FirstRefused table err := by
  constructor
  · intro h
    have hfit := groupsFit_of_ofTable h
    rcases ofTable_outcome hfit with ⟨_, hok, -⟩ | ⟨_, hok, hfirst⟩ <;> cases h.symm.trans hok
    exact ⟨hfit, hfirst⟩
  · rintro ⟨hfit, herr⟩
    rcases ofTable_outcome hfit with ⟨_, -, hgrouped⟩ | ⟨_, hok, hfirst⟩
    · exact absurd hgrouped.admissible herr.not_admissible
    · rw [hok, hfirst.eq herr]

/-- The bind groups of a table whose groups can be counted are its partition. There are none exactly
if an entry has the place of an earlier one or cannot be read, and then the first such entry is
told: with the earlier one, or as it is by itself. -/
theorem ofTable_grouped (table : BindingTable) :
    (∀ groups, ofTable table = .ok (.ok groups) ↔ GroupsFit table ∧ Grouped table groups) ∧
      ∀ err, ofTable table = .ok (.error err) ↔ GroupsFit table ∧ FirstRefused table err :=
  ⟨fun _ => ofTable_eq_ok_iff, fun _ => ofTable_eq_refused_iff⟩

end

/-! ## Tables of layouts -/

theorem outOfBounds_ne_addOverflow (length index : Nat) :
    Crash.outOfBounds length index ≠ .addOverflow := by
  intro h
  have htext : (Crash.outOfBounds length index).message.toList.head? =
      Crash.addOverflow.message.toList.head? := by rw [h]
  revert htext
  simp [Crash.outOfBounds, Crash.addOverflow, Crash.message, toString]

/-- The group of an entry is one that a resource of the layout asks for. -/
theorem exists_spec_of_mem {specs : List ResourceSpec} {mapping : Mapping} {device : Device}
    {stages : List ResourceList} {table : BindingTable}
    (hspecs : Mapping.ofSpecs specs = .ok mapping)
    (hbuild : BindingTable.build mapping device stages = .ok table) {t : TableEntry}
    (ht : t ∈ table) : ∃ r ∈ specs, r.name = t.name ∧ r.group = t.place.group := by
  obtain ⟨entry, hget, hplace, -⟩ := (BindingTable.build_eq_ok hbuild).1 t ht
  have hmem := Mapping.mem_entries_of_get? hget
  rw [Mapping.entries_ofSpecs hspecs] at hmem
  obtain ⟨r, hr, heq⟩ := List.mem_map.1 hmem
  obtain ⟨hname, hentry⟩ := Prod.mk.inj heq
  refine ⟨r, hr, hname, ?_⟩
  rw [hplace, ← hentry]
  rfl

/-- A table that is built for a layout has bind groups or is refused, unless an entry of it lies in
the group of the highest number that a layout can name: then one more than the number is no word.
No position outside of the groups is ever looked at. -/
theorem ofTable_stops_iff {specs : List ResourceSpec} {mapping : Mapping} {device : Device}
    {stages : List ResourceList} {table : BindingTable}
    (hspecs : Mapping.ofSpecs specs = .ok mapping)
    (hbuild : BindingTable.build mapping device stages = .ok table) :
    (∀ c, ofTable table = .error c ↔ c = .addOverflow ∧ ∃ t ∈ table, ∃ r ∈ specs,
      r.name = t.name ∧ r.group = t.place.group ∧ r.group.toNat + 1 = UInt32.size) ∧
    (∀ length index, ofTable table ≠ .error (.outOfBounds length index)) ∧
    ((∀ r ∈ specs, r.group.toNat + 1 < UInt32.size) →
      (∃ groups, ofTable table = .ok (.ok groups)) ∨ ∃ err, ofTable table = .ok (.error err)) := by
  have hfits : GroupsFit table ↔ ¬ ∃ t ∈ table, ∃ r ∈ specs,
      r.name = t.name ∧ r.group = t.place.group ∧ r.group.toNat + 1 = UInt32.size := by
    constructor
    · rintro hfit ⟨t, ht, r, -, -, hgroup, hlast⟩
      have := hfit t ht
      rw [hgroup] at hlast
      omega
    · intro hnone t ht
      obtain ⟨r, hr, hname, hgroup⟩ := exists_spec_of_mem hspecs hbuild ht
      have hlt := r.group.toNat_lt
      have hne : r.group.toNat + 1 ≠ UInt32.size := fun hlast =>
        hnone ⟨t, ht, r, hr, hname, hgroup, hlast⟩
      rw [← hgroup]
      exact Nat.lt_of_le_of_ne hlt hne
  refine ⟨fun c => ?_, fun length index h => ?_, fun hspec => ?_⟩
  · rw [ofTable_eq_error_iff, hfits, not_not, and_comm]
  · exact outOfBounds_ne_addOverflow length index (ofTable_eq_error_iff.1 h).2
  · have hfit : GroupsFit table := by
      refine hfits.2 ?_
      rintro ⟨t, -, r, hr, -, -, hlast⟩
      exact absurd hlast (Nat.ne_of_lt (hspec r hr))
    rcases ofTable_outcome hfit with ⟨groups, h, -⟩ | ⟨err, h, -⟩
    · exact .inl ⟨groups, h⟩
    · exact .inr ⟨err, h⟩

/-- A layout of one resource, in the given group. -/
def groupLayout (group : UInt32) : List ResourceSpec :=
  [{ name := "t", group, binding := 0 }]

/-- A stage that binds the resource, and that no bind group can be seen by. -/
def geometryStage : ResourceList where
  shader := "s"
  stage := .geometry
  language := .wgsl
  resources := [.ofCategory "t" .uniformBuffer ⟨0, 0⟩]

/-- The greatest group that can be counted. -/
theorem ofTable_stops_iff_lastCounted : ∃ mapping table,
    Mapping.ofSpecs (groupLayout 4294967294) = .ok mapping ∧
      BindingTable.build mapping .webGpu [geometryStage] = .ok table ∧
      ((∃ groups, ofTable table = .ok (.ok groups)) ∨ ∃ err, ofTable table = .ok (.error err)) := by
  have hspecs : Mapping.ofSpecs (groupLayout 4294967294) =
      .ok (.ofEntries [("t", { group := 4294967294, binding := 0 })]) := by decide +kernel
  have hbuild : BindingTable.build (.ofEntries [("t", { group := 4294967294, binding := 0 })])
      .webGpu [geometryStage] = .ok [{
        name := "t", stages := .single .geometry, category := .uniformBuffer, arraySize := 1,
        place := ⟨4294967294, 0⟩, flags := {}, backend := .webGpu .unrefined none none }] := by
    decide +kernel
  exact ⟨_, _, hspecs, hbuild, (ofTable_stops_iff hspecs hbuild).2.2 (by decide)⟩

/-- In the last group the entry is not even read, although it would be refused. -/
theorem ofTable_lastGroup : ∃ mapping table,
    Mapping.ofSpecs (groupLayout 4294967295) = .ok mapping ∧
      BindingTable.build mapping .webGpu [geometryStage] = .ok table ∧
      table.map BindGroupEntry.ofTableEntry = [.error (.unsupportedStages "t")] ∧
      ofTable table = .error .addOverflow :=
  ⟨.ofEntries [("t", { group := 4294967295, binding := 0 })],
    [{ name := "t", stages := .single .geometry, category := .uniformBuffer, arraySize := 1,
       place := ⟨4294967295, 0⟩, flags := {}, backend := .webGpu .unrefined none none }],
    by decide +kernel, by decide +kernel, by decide +kernel, by decide +kernel⟩

end BindGroup

end ShaderBind
