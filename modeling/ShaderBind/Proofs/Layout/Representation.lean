import ShaderBind.Proofs.Layout.Insertion

/-!
# What a mapping is kept in

A mapping is kept in a table of entries by name and a list of the names in order, which an insertion
changes one after the other, and not always both. After any insertions, refused ones included, the
two agree (`Raw.Represents`): the list has every name of the table once, in the order in which
insertions of them succeeded, and the entry of a name is the last one in range that came for it.
What one insertion does to the order and to the entries (`Raw.order_insert`, `Raw.get?_insert`)
gives what a run of them does (`Raw.order_insertAll`, `Raw.get?_insertAll`).

A layout's mapping exists exactly if its names are different and all its entries are in range
(`exists_ofSpecs_iff`), and then has an entry for each resource, in order (`ResourceSpec.Listed`).
`insertions_represented` has both.
-/

namespace ShaderBind

theorem Entry.inRange_iff (e : Entry) :
    e.InRange ↔
      1 ≤ e.arraySize.toNat ∧ e.binding.toNat + (e.arraySize.toNat - 1) ≤ UInt32.size - 1 := by
  have hsize : 0 < UInt32.size := by decide
  constructor
  · rintro ⟨hpos, hend⟩
    exact ⟨hpos, by omega⟩
  · rintro ⟨hpos, hlast⟩
    exact ⟨hpos, by omega⟩

instance (e : Entry) : Decidable e.InRange :=
  decidable_of_iff' _ e.inRange_iff

namespace Mapping

/-! ## Runs of insertions -/

namespace Raw

/-- What is kept after entries were inserted in turn, those that were refused included. -/
def insertAll (m : Raw) (calls : List (String × Entry)) : Raw :=
  calls.foldl (fun m call => (m.insert call.1 call.2).1) m

/-- The calls that were answered without a fault, in order. -/
def accepted (m : Raw) : List (String × Entry) → List (String × Entry)
  | [] => []
  | call :: calls =>
    let rest := accepted (m.insert call.1 call.2).1 calls
    if (m.insert call.1 call.2).2.isNone then call :: rest else rest

/-- The entry of the last call for a name that was in range. -/
def lastInRange? (calls : List (String × Entry)) (name : String) : Option Entry :=
  ((calls.filter fun call => call.1 = name ∧ call.2.InRange).getLast?).map Prod.snd

/-- How the containers stand to the calls that filled them. -/
structure Represents (calls : List (String × Entry)) (m : Raw) : Prop where
  nodup_order : m.order.Nodup
  perm_order : (m.table.map Prod.fst).Perm m.order
  mem_order_iff : ∀ name, name ∈ m.order ↔ (m.get? name).isSome
  order_eq : m.order = (accepted {} calls).map Prod.fst
  names_eq : m.entries.map Prod.fst = m.order
  mem_entries_iff : ∀ name entry, (name, entry) ∈ m.entries ↔ m.get? name = some entry
  size_eq : m.size = m.table.length
  get?_eq : ∀ name, m.get? name = lastInRange? calls name
  inRange : ∀ name entry, m.get? name = some entry →
    1 ≤ entry.arraySize.toNat ∧ entry.binding.toNat + (entry.arraySize.toNat - 1) ≤ UInt32.size - 1

variable {m : Raw} {name : String} {entry : Entry}

/-- An insertion adds its name to the order exactly if it succeeds. -/
theorem order_insert (m : Raw) (name : String) (entry : Entry) :
    (m.insert name entry).1.order =
      m.order ++ if (m.insert name entry).2.isNone then [name] else [] := by
  have hinsert := insertion m name entry
  generalize m.insert name entry = out at hinsert
  cases hinsert <;> simp

/-- An insertion sets the entry of its name exactly if the entry is in range. -/
theorem get?_insert (m : Raw) (name : String) (entry : Entry) (x : String) :
    (m.insert name entry).1.get? x = if name = x ∧ entry.InRange then some entry else m.get? x := by
  have hinsert := insertion m name entry
  generalize m.insert name entry = out at hinsert
  cases hinsert with
  | noSlots hzero =>
    rw [if_neg]
    exact fun h => absurd h.2.arraySize_pos (by simp [hzero])
  | pastEnd _ hpast =>
    rw [if_neg]
    exact fun h => absurd h.2.end_le (by omega)
  | repeated hrange _ =>
    rw [get?_put]
    simp [hrange, eq_comm]
  | added hrange _ =>
    rw [get?_put]
    simp [hrange, eq_comm]

theorem order_insertAll (m : Raw) (calls : List (String × Entry)) :
    (m.insertAll calls).order = m.order ++ (m.accepted calls).map Prod.fst := by
  induction calls generalizing m with
  | nil => simp [insertAll, accepted]
  | cons call calls ih =>
    have hstep := ih (m.insert call.1 call.2).1
    rw [order_insert, List.append_assoc] at hstep
    rw [insertAll, List.foldl_cons, ← insertAll, hstep, accepted]
    split <;> rfl

theorem get?_insertAll (m : Raw) (calls : List (String × Entry)) (name : String) :
    (m.insertAll calls).get? name = (lastInRange? calls name).or (m.get? name) := by
  induction calls generalizing m with
  | nil => rfl
  | cons call calls ih =>
    rw [insertAll, List.foldl_cons, ← insertAll, ih, get?_insert, lastInRange?, lastInRange?,
      List.filter_cons]
    split
    next hcall =>
      rw [if_pos (by simpa using hcall), List.getLast?_cons]
      cases (calls.filter fun c => c.1 = name ∧ c.2.InRange).getLast? <;> rfl
    next hcall => rw [if_neg (by simpa using hcall)]

theorem toRaw_ofEntries (calls : List (String × Entry)) :
    (ofEntries calls).toRaw = insertAll {} calls :=
  (List.foldl_hom toRaw fun _ _ => rfl).symm

theorem represents_insertAll (calls : List (String × Entry)) :
    Represents calls (insertAll {} calls) := by
  have hraw := toRaw_ofEntries calls
  have hconsistent : (insertAll {} calls).Consistent := hraw ▸ (ofEntries calls).consistent
  have hget : ∀ name, (insertAll {} calls).get? name = lastInRange? calls name := fun name => by
    rw [get?_insertAll]
    exact Option.or_none
  refine ⟨hconsistent.nodup, hconsistent.perm, fun _ => hconsistent.mem_order_iff,
    order_insertAll {} calls, hraw ▸ (ofEntries calls).names_entries,
    fun _ _ => hraw ▸ Mapping.mem_entries_iff (m := ofEntries calls), ?_, hget,
    fun name entry h => ?_⟩
  · rw [← List.length_map Prod.fst, hconsistent.perm.length_eq]
    rfl
  · rw [hget, lastInRange?] at h
    obtain ⟨call, hcall, rfl⟩ := Option.map_eq_some_iff.1 h
    have hrange : call.1 = name ∧ call.2.InRange := by
      simpa using (List.mem_filter.1 (List.mem_of_getLast? hcall)).2
    exact call.2.inRange_iff.1 hrange.2

end Raw

end Mapping

/-! ## Layouts -/

theorem StageSet.mem_ofList (ss : List Stage) (s : Stage) : (ofList ss).mem s = true ↔ s ∈ ss := by
  have hfold : ∀ a : StageSet, (ss.foldl (fun a t => a.union (single t)) a).mem s = true ↔
      a.mem s = true ∨ s ∈ ss := by
    induction ss with
    | nil => simp
    | cons t ss ih =>
      intro a
      rw [List.foldl_cons, ih, mem_union, Bool.or_eq_true, mem_single, List.mem_cons, or_assoc,
        eq_comm (a := s)]
  simpa [ofList] using hfold empty

/-- Flags that are added stay, and so do those that were there. -/
theorem LayoutFlags.ofList_flags (fs : List LayoutFlag) :
    ((ofList fs).nonFilteringSampler = true ↔ .nonFilteringSampler ∈ fs) ∧
      ((ofList fs).unfilterableFloatTexture = true ↔ .unfilterableFloatTexture ∈ fs) := by
  have hfold : ∀ flags : LayoutFlags,
      ((fs.foldl add flags).nonFilteringSampler = true ↔
        flags.nonFilteringSampler = true ∨ .nonFilteringSampler ∈ fs) ∧
      ((fs.foldl add flags).unfilterableFloatTexture = true ↔
        flags.unfilterableFloatTexture = true ∨ .unfilterableFloatTexture ∈ fs) := by
    induction fs with
    | nil => simp
    | cons f fs ih =>
      intro flags
      rw [List.foldl_cons, (ih _).1, (ih _).2]
      cases f <;> simp [add]
  simpa [ofList] using hfold {}

/-- The entry stands for the resource of a layout: it has its name and its place, all stages or
those that are listed, and the flags that are listed. -/
structure ResourceSpec.Listed (r : ResourceSpec) (item : String × Entry) : Prop where
  name_eq : item.1 = r.name
  group_eq : item.2.group = r.group
  binding_eq : item.2.binding = r.binding
  arraySize_eq : item.2.arraySize = r.arraySize
  stages_iff : ∀ s, item.2.stages.mem s = true ↔ ∀ ss ∈ r.stages, s ∈ ss
  nonFilteringSampler_iff :
    item.2.flags.nonFilteringSampler = true ↔ .nonFilteringSampler ∈ r.flags
  unfilterableFloatTexture_iff :
    item.2.flags.unfilterableFloatTexture = true ↔ .unfilterableFloatTexture ∈ r.flags

theorem ResourceSpec.listed_entry (r : ResourceSpec) : r.Listed (r.name, r.entry) where
  name_eq := rfl
  group_eq := rfl
  binding_eq := rfl
  arraySize_eq := rfl
  stages_iff s := by
    cases hstages : r.stages with
    | none => simp [ResourceSpec.entry, hstages]
    | some ss => simp [ResourceSpec.entry, hstages, StageSet.mem_ofList]
  nonFilteringSampler_iff := (LayoutFlags.ofList_flags r.flags).1
  unfilterableFloatTexture_iff := (LayoutFlags.ofList_flags r.flags).2

namespace Mapping

/-- Entries can be put into a mapping in turn exactly if their names are new and different and they
are in range. -/
theorem exists_foldlM_withEntry_iff (specs : List ResourceSpec) (start : Mapping) :
    (∃ m, specs.foldlM (fun m r => m.withEntry r.name r.entry) start = .ok m) ↔
      (start.entries.map Prod.fst ++ specs.map ResourceSpec.name).Nodup ∧
        ∀ r ∈ specs, r.entry.InRange := by
  induction specs generalizing start with
  | nil =>
    refine iff_of_true ⟨start, rfl⟩ ⟨?_, List.forall_mem_nil _⟩
    rw [List.map_nil, List.append_nil, names_entries]
    exact start.consistent.nodup
  | cons r specs ih =>
    have hnames : ∀ next, start.withEntry r.name r.entry = .ok next →
        next.entries.map Prod.fst ++ specs.map ResourceSpec.name =
          start.entries.map Prod.fst ++ (r :: specs).map ResourceSpec.name := by
      intro next hnext
      rw [entries_withEntry hnext, List.map_append, List.map_singleton, List.map_cons,
        ← List.append_cons]
    rw [List.foldlM_cons, List.forall_mem_cons]
    constructor
    · rintro ⟨m, h⟩
      obtain ⟨next, hnext, h⟩ := bind_eq_ok_iff.1 h
      obtain ⟨hnodup, hrange⟩ := (ih next).1 ⟨m, h⟩
      exact ⟨hnames next hnext ▸ hnodup, (withEntry_eq_ok_iff.1 hnext).1, hrange⟩
    · rintro ⟨hnodup, hr, hrange⟩
      have hnew : r.name ∉ start.entries.map Prod.fst := fun hmem =>
        (List.nodup_append.1 hnodup).2.2 _ hmem _ List.mem_cons_self rfl
      have hnext := withEntry_eq_ok_iff.2 ⟨hr, hnew, rfl⟩
      obtain ⟨m, h⟩ := (ih _).2 ⟨(hnames _ hnext).symm ▸ hnodup, hrange⟩
      exact ⟨m, bind_eq_ok_iff.2 ⟨_, hnext, h⟩⟩

/-- A layout has a mapping exactly if its names are different and its entries are in range. -/
theorem exists_ofSpecs_iff (specs : List ResourceSpec) :
    (∃ m, ofSpecs specs = .ok m) ↔
      (specs.map ResourceSpec.name).Nodup ∧ ∀ r ∈ specs, r.entry.InRange :=
  exists_foldlM_withEntry_iff specs empty

/-- After any insertions from the empty mapping, refused ones included, the order has the names of
the table, each once and as they were first inserted with success; so the entries are listed once
each in this order, and their number is that of the names; and every entry has a slot and a binding
for its last one. A layout's mapping exists exactly if the names are different and all entries have
this, and then lists the layout's resources in order, with their stages and flags. -/
theorem insertions_represented :
    (∀ calls, (ofEntries calls).toRaw = Raw.insertAll {} calls ∧
      Raw.Represents calls (Raw.insertAll {} calls)) ∧
      ∀ specs : List ResourceSpec,
        ((∃ m, ofSpecs specs = .ok m) ↔
          (specs.map ResourceSpec.name).Nodup ∧ ∀ r ∈ specs,
            1 ≤ r.arraySize.toNat ∧ r.binding.toNat + (r.arraySize.toNat - 1) ≤ UInt32.size - 1) ∧
        ∀ m, ofSpecs specs = .ok m → List.Forall₂ ResourceSpec.Listed specs m.entries := by
  refine ⟨fun calls => ⟨Raw.toRaw_ofEntries calls, Raw.represents_insertAll calls⟩,
    fun specs => ⟨?_, fun m h => ?_⟩⟩
  · rw [exists_ofSpecs_iff]
    exact and_congr_right fun _ => forall₂_congr fun r _ => r.entry.inRange_iff
  · rw [entries_ofSpecs h, List.forall₂_map_right_iff]
    exact List.forall₂_same.2 fun r _ => r.listed_entry

end Mapping

end ShaderBind
