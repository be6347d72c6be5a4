import ShaderBind.Proofs.Layout.Lookup
import ShaderBind.Proofs.Outcome

/-!
# Insertions

What an insertion does to a mapping, in four cases (`Insertion`): an entry without slots and one
past the last binding are refused and leave the mapping alone; an entry of a new name comes last;
and an entry of a name that is there is refused as well, but takes the place of the old one all the
same.

So what a mapping holds after insertions was checked by one of them (`Inserted.inRange`), and
what is found in it has a place (`Inserted.exists_place`). And a refused insertion changes no name,
and no answer that does not concern its own name, but it may change that one (`insert_refused`).
-/

namespace ShaderBind

/-- The entry has a slot and its last slot has a binding. -/
structure Entry.InRange (e : Entry) : Prop where
  arraySize_pos : 0 < e.arraySize.toNat
  end_le : e.binding.toNat + e.arraySize.toNat ≤ UInt32.size

namespace Mapping

/-- The mappings that come from inserting entries in turn, also such as are refused. -/
inductive Inserted : Mapping → Prop
  | empty : Inserted empty
  | insert {m : Mapping} (name : String) (entry : Entry) (hm : Inserted m) :
      Inserted (m.insert name entry).1

/-! ## What an insertion does -/

section

variable {m : Mapping} {name : String} {entry old : Entry} {before after : List (String × Entry)}

/-- A name has the first entry that stands beside it. -/
theorem get?_eq_some_iff :
    m.get? name = some entry ↔
      ∃ before after, m.entries = before ++ (name, entry) :: after ∧
        name ∉ before.map Prod.fst := by
  rw [get?_eq_find?, Option.map_eq_some_iff]
  constructor
  · rintro ⟨⟨key, _⟩, hfind, rfl⟩
    obtain ⟨hkey, before, after, hentries, hbefore⟩ := List.find?_eq_some_iff_append.1 hfind
    obtain rfl : key = name := by simpa using hkey
    refine ⟨before, after, hentries, fun hmem => ?_⟩
    obtain ⟨p, hp, hkey⟩ := List.mem_map.1 hmem
    simpa [hkey] using hbefore p hp
  · rintro ⟨before, after, hentries, hbefore⟩
    refine ⟨(name, entry), List.find?_eq_some_iff_append.2
      ⟨by simp, before, after, hentries, fun p hp => ?_⟩, rfl⟩
    simpa using fun hkey : p.1 = name => hbefore (hkey ▸ List.mem_map_of_mem hp)

/-- An entry that is set is seen under its own name and nowhere else. -/
theorem Raw.get?_put (m : Raw) (order : List String) (x : String) :
    ({ table := put name entry m.table, order } : Raw).get? x =
      if x = name then some entry else m.get? x := by
  unfold Raw.get?
  dsimp only
  induction m.table with
  | nil =>
    rw [put, List.lookup_cons, List.lookup_nil]
    split <;> simp_all
  | cons e es ih =>
    rw [put]
    split
    next he =>
      rw [List.lookup_cons, List.lookup_cons, he]
      split <;> simp_all
    next he =>
      rw [List.lookup_cons, List.lookup_cons, ih]
      split <;> simp_all

/-- What an insertion makes of the table and the order, and what it tells. -/
inductive Raw.Insertion (m : Raw) (name : String) (entry : Entry) :
    Raw × Option ShaderError → Prop
  | noSlots (h : entry.arraySize = 0) :
      Insertion m name entry (m, some (.layout (.zeroArraySize name)))
  | pastEnd (hsize : entry.arraySize ≠ 0)
      (h : UInt32.size < entry.binding.toNat + entry.arraySize.toNat) :
      Insertion m name entry
        (m, some (.layout (.pastLastBinding name entry.binding entry.arraySize)))
  | repeated (h : entry.InRange) (hold : (m.get? name).isSome) :
      Insertion m name entry
        ({ m with table := put name entry m.table }, some (.layout (.repeatedName name)))
  | added (h : entry.InRange) (hnew : m.get? name = none) :
      Insertion m name entry ({ table := put name entry m.table, order := m.order ++ [name] }, none)

/-- Whatever is inserted, one of the four things happens. -/
theorem Raw.insertion (m : Raw) (name : String) (entry : Entry) :
    Insertion m name entry (m.insert name entry) := by
  unfold Raw.insert
  split
  next hzero => exact .noSlots hzero
  next hsize =>
    have hpos : entry.arraySize.toNat ≠ 0 := fun hzero => hsize (UInt32.toNat_inj.1 hzero)
    split
    next hpast => exact .pastEnd hsize (by omega)
    next hend =>
      have hrange : entry.InRange := ⟨by omega, by omega⟩
      dsimp only
      split
      next hold => exact .repeated hrange hold
      next hnew => exact .added hrange (by simpa using hnew)

/-- What an insertion leaves and what it tells. -/
inductive Insertion (m : Mapping) (name : String) (entry : Entry) :
    Mapping × Option ShaderError → Prop
  | noSlots (h : entry.arraySize = 0) :
      Insertion m name entry (m, some (.layout (.zeroArraySize name)))
  | pastEnd (hsize : entry.arraySize ≠ 0)
      (h : UInt32.size < entry.binding.toNat + entry.arraySize.toNat) :
      Insertion m name entry
        (m, some (.layout (.pastLastBinding name entry.binding entry.arraySize)))
  | repeated {m' : Mapping} {before after : List (String × Entry)} {old : Entry}
      (h : entry.InRange) (hentries : m.entries = before ++ (name, old) :: after)
      (hbefore : name ∉ before.map Prod.fst)
      (hreplaced : m'.entries = before ++ (name, entry) :: after) :
      Insertion m name entry (m', some (.layout (.repeatedName name)))
  | added {m' : Mapping} (h : entry.InRange) (hnew : name ∉ m.entries.map Prod.fst)
      (hadded : m'.entries = m.entries ++ [(name, entry)]) :
      Insertion m name entry (m', none)

/-- Names other than that of the new entry have the entries that they had. -/
theorem Raw.filterMap_item?_put {m : Raw} {order names : List String} (h : name ∉ names) :
    names.filterMap ({ table := put name entry m.table, order } : Raw).item? =
      names.filterMap m.item? := by
  refine List.filterMap_congr fun n hn => ?_
  rw [Raw.item?, Raw.get?_put, if_neg fun heq : n = name => h (heq ▸ hn)]
  rfl

theorem Raw.fst_mem_of_mem_filterMap {m : Raw} {names : List String} {e : String × Entry}
    (h : e ∈ names.filterMap m.item?) : e.1 ∈ names := by
  obtain ⟨name, hname, hitem⟩ := List.mem_filterMap.1 h
  obtain ⟨_, -, rfl⟩ := Option.map_eq_some_iff.1 hitem
  exact hname

theorem Raw.item?_put {m : Raw} {order : List String} :
    ({ table := put name entry m.table, order } : Raw).item? name = some (name, entry) := by
  rw [Raw.item?, Raw.get?_put, if_pos rfl, Option.map_some]

theorem insertion_of_raw {out : Mapping.Raw × Option ShaderError}
    (h : Raw.Insertion m.toRaw name entry out) (hout : out.1.Consistent) :
    Insertion m name entry (⟨out.1, hout⟩, out.2) := by
  cases h with
  | noSlots hzero => exact .noSlots hzero
  | pastEnd hsize hpast => exact .pastEnd hsize hpast
  | repeated hrange hold =>
    obtain ⟨front, back, horder⟩ := List.append_of_mem (m.consistent.mem_order_iff.2 hold)
    obtain ⟨old, hold⟩ := Option.isSome_iff_exists.1 hold
    have hnodup : (front ++ name :: back).Nodup := horder ▸ m.consistent.nodup
    have hfront : name ∉ front := fun hname =>
      (List.nodup_append.1 hnodup).2.2 name hname name List.mem_cons_self rfl
    have hback : name ∉ back := (List.nodup_cons.1 (List.nodup_append.1 hnodup).2.1).1
    have hentries : m.entries =
        front.filterMap m.toRaw.item? ++ (name, old) :: back.filterMap m.toRaw.item? := by
      rw [entries, Raw.entries, horder, List.filterMap_append, List.filterMap_cons, Raw.item?, hold]
      rfl
    refine .repeated hrange hentries ?_ ?_
    · intro hname
      obtain ⟨e, he, rfl⟩ := List.mem_map.1 hname
      exact hfront (Raw.fst_mem_of_mem_filterMap he)
    · rw [entries, Raw.entries]
      dsimp only
      rw [horder, List.filterMap_append, List.filterMap_cons, Raw.item?_put,
        Raw.filterMap_item?_put hfront, Raw.filterMap_item?_put hback]
  | added hrange hnew =>
    have hname : name ∉ m.order := fun hmem => by
      rw [m.consistent.mem_order_iff, hnew] at hmem
      cases hmem
    refine .added hrange (m.names_entries ▸ hname) ?_
    rw [entries, Raw.entries]
    dsimp only
    rw [List.filterMap_append, Raw.filterMap_item?_put hname, List.filterMap_cons, Raw.item?_put]
    rfl

/-- Whatever is inserted, one of the four things happens, and the mapping stays consistent. -/
theorem insertion (m : Mapping) (name : String) (entry : Entry) :
    Insertion m name entry (m.insert name entry) :=
  insertion_of_raw (Raw.insertion m.toRaw name entry) _

/-- What an insertion leaves was there before or was checked by it. -/
theorem mem_entries_insert {e : String × Entry} (h : e ∈ (m.insert name entry).1.entries) :
    e ∈ m.entries ∨ e.2.InRange := by
  have hinsert := insertion m name entry
  generalize m.insert name entry = out at h hinsert
  cases hinsert with
  | noSlots _ => exact .inl h
  | pastEnd _ _ => exact .inl h
  | repeated hrange hentries _ hreplaced =>
    rw [hentries]
    rcases List.mem_append.1 (hreplaced ▸ h) with h | h
    · exact .inl (List.mem_append_left _ h)
    · rcases List.mem_cons.1 h with rfl | h
      · exact .inr hrange
      · exact .inl (List.mem_append_right _ (List.mem_cons_of_mem _ h))
  | added hrange _ hadded =>
    rcases List.mem_append.1 (hadded ▸ h) with h | h
    · exact .inl h
    · rw [List.mem_singleton.1 h]
      exact .inr hrange

/-- An entry that takes the place of another is seen under its own name and nowhere else. -/
theorem get?_replaced {m' : Mapping} (hentries : m.entries = before ++ (name, old) :: after)
    (hbefore : name ∉ before.map Prod.fst)
    (hreplaced : m'.entries = before ++ (name, entry) :: after) (x : String) :
    m'.get? x = if x = name then some entry else m.get? x := by
  split
  next hx =>
    subst hx
    exact get?_eq_some_iff.2 ⟨before, after, hreplaced, hbefore⟩
  next hx =>
    have hother : (name = x) = False := eq_false (Ne.symm hx)
    simp only [get?_eq_find?, hentries, hreplaced, List.find?_append, List.find?_cons, hother,
      decide_false]

/-- An entry is taken if it is in range and its name is new. -/
theorem withEntry_eq_ok_iff {m' : Mapping} :
    m.withEntry name entry = .ok m' ↔
      entry.InRange ∧ name ∉ m.entries.map Prod.fst ∧ m' = (m.insert name entry).1 := by
  have hinsert := insertion m name entry
  unfold withEntry
  generalize m.insert name entry = out at hinsert
  cases hinsert with
  | noSlots hzero =>
    refine iff_of_false (by simp) fun h => ?_
    exact absurd h.1.arraySize_pos (by simp [hzero])
  | pastEnd _ hpast =>
    refine iff_of_false (by simp) fun h => ?_
    exact absurd h.1.end_le (by omega)
  | repeated _ hentries _ _ =>
    refine iff_of_false (by simp) fun h => h.2.1 ?_
    simp [hentries]
  | added hrange hnew _ =>
    simp only [Except.ok.injEq]
    exact ⟨fun h => ⟨hrange, hnew, h.symm⟩, fun h => h.2.2.symm⟩

/-- A new entry is the last. -/
theorem entries_withEntry {m' : Mapping} (h : m.withEntry name entry = .ok m') :
    m'.entries = m.entries ++ [(name, entry)] := by
  have hinsert := insertion m name entry
  unfold withEntry at h
  generalize m.insert name entry = out at h hinsert
  cases hinsert with
  | noSlots _ => cases h
  | pastEnd _ _ => cases h
  | repeated _ _ _ _ => cases h
  | added _ _ hadded =>
    cases h
    exact hadded

end

/-- The entries of a layout's mapping are those that its resources ask for, in order. -/
theorem entries_ofSpecs {specs : List ResourceSpec} {m : Mapping} (h : ofSpecs specs = .ok m) :
    m.entries = specs.map fun r => (r.name, r.entry) := by
  have hrun : ∀ (specs : List ResourceSpec) (start m : Mapping),
      specs.foldlM (fun m r => m.withEntry r.name r.entry) start = .ok m →
        m.entries = start.entries ++ specs.map fun r => (r.name, r.entry) := by
    intro specs
    induction specs with
    | nil =>
      intro start m h
      cases h
      rw [List.map_nil, List.append_nil]
    | cons r specs ih =>
      intro start m h
      rw [List.foldlM_cons] at h
      obtain ⟨next, hnext, h⟩ := bind_eq_ok_iff.1 h
      rw [ih next m h, entries_withEntry hnext, List.map_cons, ← List.append_cons]
  exact hrun specs empty m h

/-! ## What insertions leave -/

/-- Every entry that was inserted is in range. -/
theorem Inserted.inRange {m : Mapping} (hm : m.Inserted) : ∀ e ∈ m.entries, e.2.InRange := by
  induction hm with
  | empty => exact fun _ h => by cases h
  | insert name entry _ ih => exact fun e he => (mem_entries_insert he).elim (ih e) id

section

variable {m : Mapping} {shader name : String} {altName suffix : Option String} {resolved : Resolved}

theorem Resolved.slot_eq_zero (h : resolved.element = none) : resolved.slot = 0 := by
  rw [Resolved.slot, h, Option.getD_none]

/-- What a name resolves to is in range. -/
theorem Inserted.inRange_of_resolve (hm : m.Inserted)
    (h : m.resolve shader name altName suffix = .ok resolved) : resolved.entry.InRange :=
  hm.inRange _ (mem_entries_of_get? (get?_of_resolve h))

/-- The first slot of a resource that was found is one of the entry's. -/
theorem Inserted.slot_lt (hm : m.Inserted)
    (h : m.resolve shader name altName suffix = .ok resolved) :
    resolved.slot.toNat < resolved.entry.arraySize.toNat := by
  have helement := element_lt_of_resolve h
  unfold Resolved.slot
  cases hindex : resolved.element with
  | none => exact (hm.inRange_of_resolve h).arraySize_pos
  | some index => exact UInt32.lt_iff_toNat_lt.1 (helement index hindex)

/-- What a name resolves to has a place, counted from its entry. -/
theorem Inserted.exists_place (hm : m.Inserted)
    (h : m.resolve shader name altName suffix = .ok resolved) :
    ∃ place, resolved.place = .ok place ∧ place.group = resolved.entry.group ∧
      place.binding.toNat = resolved.entry.binding.toNat + resolved.slot.toNat := by
  have hslot := hm.slot_lt h
  have hend := (hm.inRange_of_resolve h).end_le
  obtain ⟨binding, hbinding⟩ := exists_addWords_iff.2
    (show resolved.entry.binding.toNat + resolved.slot.toNat < UInt32.size by omega)
  exact ⟨⟨resolved.entry.group, binding⟩, bind_eq_ok_iff.2 ⟨binding, hbinding, rfl⟩, rfl,
    (addWords_eq_ok_iff.1 hbinding).symm⟩

end

/-! ## Refused insertions -/

/-- The names that are looked for when names are resolved in turn: each as it is, and the array that
it is an element of. -/
def lookedUp (suffix : Option String) (candidates : List String) : List String :=
  candidates.flatMap fun candidate =>
    candidate ::
      ((suffix.bind fun s => ElementName.parse? s candidate).map ElementName.base).toList

section

variable {m m' : Mapping} {suffix : Option String}

/-- A lookup depends on the names that it tries, and on no other. -/
theorem lookup_congr {name : String} (h : ∀ x ∈ lookedUp suffix [name], m'.get? x = m.get? x) :
    m'.lookup suffix name = m.lookup suffix name := by
  have hname : m'.get? name = m.get? name := h name (by simp [lookedUp])
  unfold lookup
  rw [hname]
  cases hparse : suffix.bind fun s => ElementName.parse? s name with
  | none => rfl
  | some n =>
    have hbase : m'.get? n.base = m.get? n.base :=
      h n.base (by rw [lookedUp, List.flatMap_cons, hparse]; simp)
    simp only [hbase]

/-- Mappings that agree on what is looked for find the same. -/
theorem resolve_congr {shader name : String} {altName : Option String}
    (h : ∀ x ∈ lookedUp suffix (name :: altName.toList), m'.get? x = m.get? x) :
    m'.resolve shader name altName suffix = m.resolve shader name altName suffix := by
  have hamong : ∀ candidates failure, (∀ x ∈ lookedUp suffix candidates, m'.get? x = m.get? x) →
      m'.resolveAmong shader name suffix candidates failure =
        m.resolveAmong shader name suffix candidates failure := by
    intro candidates
    induction candidates with
    | nil => exact fun _ _ => rfl
    | cons candidate candidates ih =>
      intro failure h
      have hfirst : m'.lookup suffix candidate = m.lookup suffix candidate :=
        lookup_congr fun x hx => h x (by
          rw [lookedUp, List.flatMap_cons]
          exact List.mem_append_left _ (by simpa [lookedUp] using hx))
      have hrest : ∀ x ∈ lookedUp suffix candidates, m'.get? x = m.get? x := fun x hx => h x (by
        rw [lookedUp, List.flatMap_cons]
        exact List.mem_append_right _ hx)
      simp only [resolveAmong, hfirst, fun failure => ih failure hrest]
  exact hamong _ _ h

end

/-- The two mappings cannot be told apart. -/
structure SameAnswers (m m' : Mapping) : Prop where
  get?_eq : ∀ name, m'.get? name = m.get? name
  size_eq : m'.size = m.size
  entries_eq : m'.entries = m.entries
  resolve_eq : ∀ shader name altName suffix,
    m'.resolve shader name altName suffix = m.resolve shader name altName suffix

theorem SameAnswers.refl (m : Mapping) : m.SameAnswers m where
  get?_eq _ := rfl
  size_eq := rfl
  entries_eq := rfl
  resolve_eq _ _ _ _ := rfl

/-- What a refused insertion leaves as it was: the names and their order, and all that does not
concern its own name. -/
structure SameApart (name : String) (m m' : Mapping) : Prop where
  size_eq : m'.size = m.size
  names_eq : m'.entries.map Prod.fst = m.entries.map Prod.fst
  get?_eq : ∀ x, x ≠ name → m'.get? x = m.get? x
  resolve_eq : ∀ shader x altName suffix, name ∉ lookedUp suffix (x :: altName.toList) →
    m'.resolve shader x altName suffix = m.resolve shader x altName suffix

/-- Mappings that answer alike do so apart from a name. -/
theorem SameAnswers.apart {m m' : Mapping} (h : m.SameAnswers m') (name : String) :
    SameApart name m m' where
  size_eq := h.size_eq
  names_eq := by rw [h.entries_eq]
  get?_eq x _ := h.get?_eq x
  resolve_eq shader x altName suffix _ := h.resolve_eq shader x altName suffix

section

variable {m m' : Mapping} {name : String} {entry old : Entry} {before after : List (String × Entry)}

/-- An entry that is replaced changes the answers for its own name only. -/
theorem sameApart_replaced (hentries : m.entries = before ++ (name, old) :: after)
    (hbefore : name ∉ before.map Prod.fst)
    (hreplaced : m'.entries = before ++ (name, entry) :: after) : SameApart name m m' := by
  have hget : ∀ x, x ≠ name → m'.get? x = m.get? x := fun x hx => by
    rw [get?_replaced hentries hbefore hreplaced, if_neg hx]
  refine ⟨by simp [size_eq_length, hentries, hreplaced], by simp [hentries, hreplaced], hget,
    fun shader x altName suffix hx => ?_⟩
  exact resolve_congr fun y hy => hget y fun hname => hx (hname ▸ hy)

/-- Answers depend on the entries alone. -/
theorem sameAnswers_of_entries (h : m'.entries = m.entries) : m.SameAnswers m' := by
  have hget : ∀ x, m'.get? x = m.get? x := fun x => by
    rw [get?_eq_find?, h, ← get?_eq_find?]
  exact ⟨hget, by rw [size_eq_length, h, size_eq_length], h,
    fun _ _ _ _ => resolve_congr fun y _ => hget y⟩

/-- A replaced entry changes no answer exactly if it is the old one. -/
theorem sameAnswers_replaced_iff (hentries : m.entries = before ++ (name, old) :: after)
    (hbefore : name ∉ before.map Prod.fst)
    (hreplaced : m'.entries = before ++ (name, entry) :: after) :
    m.SameAnswers m' ↔ entry = old := by
  constructor
  · intro h
    have hnew := h.get?_eq name
    rw [get?_replaced hentries hbefore hreplaced, if_pos rfl,
      get?_eq_some_iff.2 ⟨before, after, hentries, hbefore⟩] at hnew
    exact Option.some.inj hnew
  · rintro rfl
    exact sameAnswers_of_entries (hreplaced.trans hentries.symm)

end

/-- An insertion that is refused, be it for an entry without slots, for one past the last binding or
for a name that is there, changes none of a mapping's answers, except that the entry of a name that
is there is replaced. So all answers are the same exactly if the entry is not of the third kind or
is the one that is there already; and in any case the number of the entries, their names and the
order of these are, and what is said of other names. -/
theorem insert_refused {m : Mapping} {name : String} {entry : Entry} {e : ShaderError}
    (h : (m.insert name entry).2 = some e) :
    (entry.arraySize = 0 ∧ e = .layout (.zeroArraySize name) ∨
        entry.arraySize ≠ 0 ∧ UInt32.size < entry.binding.toNat + entry.arraySize.toNat ∧
          e = .layout (.pastLastBinding name entry.binding entry.arraySize) ∨
        entry.InRange ∧ name ∈ m.entries.map Prod.fst ∧ e = .layout (.repeatedName name)) ∧
      (m.SameAnswers (m.insert name entry).1 ↔
        (e = .layout (.repeatedName name) → m.get? name = some entry)) ∧
      SameApart name m (m.insert name entry).1 ∧
      (e = .layout (.repeatedName name) → (m.insert name entry).1.get? name = some entry) := by
  have hinsert := insertion m name entry
  generalize m.insert name entry = out at h hinsert ⊢
  cases hinsert with
  | noSlots hzero =>
    cases h
    exact ⟨.inl ⟨hzero, rfl⟩, iff_of_true (.refl m) (by simp), (SameAnswers.refl m).apart name,
      by simp⟩
  | pastEnd hsize hpast =>
    cases h
    exact ⟨.inr (.inl ⟨hsize, hpast, rfl⟩), iff_of_true (.refl m) (by simp),
      (SameAnswers.refl m).apart name, by simp⟩
  | @repeated m' before after old hrange hentries hbefore hreplaced =>
    cases h
    have hold := get?_eq_some_iff.2 ⟨before, after, hentries, hbefore⟩
    refine ⟨.inr (.inr ⟨hrange, by simp [hentries], rfl⟩), ?_,
      sameApart_replaced hentries hbefore hreplaced, fun _ => ?_⟩
    · rw [sameAnswers_replaced_iff hentries hbefore hreplaced, hold]
      simp [eq_comm]
    · rw [get?_replaced hentries hbefore hreplaced, if_pos rfl]
  | added _ _ _ => cases h

/-- A layout with one resource. -/
def single : Mapping := (empty.insert "a" { group := 0, binding := 0 }).1

/-- An array without slots is refused, and all answers stay. -/
theorem insert_refused_noSlots :
    single.Inserted ∧
      (single.insert "a" { group := 0, binding := 1, arraySize := 0 }).2 =
        some (.layout (.zeroArraySize "a")) ∧
      single.SameAnswers (single.insert "a" { group := 0, binding := 1, arraySize := 0 }).1 := by
  have hrefused : (single.insert "a" { group := 0, binding := 1, arraySize := 0 }).2 =
      some (.layout (.zeroArraySize "a")) := by
    decide +kernel
  exact ⟨.insert _ _ .empty, hrefused, (insert_refused hrefused).2.1.2 (by simp)⟩

/-- A name that comes twice is refused, but the second entry is the one that is found. -/
theorem insert_refused_replaces :
    single.Inserted ∧
      (single.insert "a" { group := 0, binding := 1 }).2 = some (.layout (.repeatedName "a")) ∧
      single.get? "a" = some { group := 0, binding := 0 } ∧
      (single.insert "a" { group := 0, binding := 1 }).1.get? "a" =
        some { group := 0, binding := 1 } :=
  ⟨.insert _ _ .empty, by decide +kernel, by decide +kernel, by decide +kernel⟩

end Mapping

end ShaderBind
