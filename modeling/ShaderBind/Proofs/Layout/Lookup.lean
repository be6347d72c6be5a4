import ShaderBind.Layout.Mapping
import ShaderBind.Proofs.Resource.ElementName
import ShaderBind.Resource.List

/-!
# Names that were found

A resource that a mapping finds has the mapping's entry of its key (`get?_of_resolve`), and an
index inside the entry's array if it is an element of one (`element_lt_of_resolve`). Whether a
suffix is needed depends on the name: one that the mapping has as a whole is found without
(`resolve_of_get?`), one that the suffix takes apart in the array that it is an element of
(`resolve_of_parse?_eq_some`). A suffix that is empty takes no name apart, so that dropping it
changes nothing (`resolve_usable`).
-/

namespace ShaderBind

theorem ResourceList.usable_usable (suffix : Option String) :
    usable (usable suffix) = usable suffix := by
  unfold usable
  rw [Option.filter_filter]
  simp

namespace Mapping

/-! ## Entries -/

/-- The mapping that is left when entries are inserted in turn, those that are refused included. -/
def ofEntries (calls : List (String × Entry)) : Mapping :=
  calls.foldl (fun m call => (m.insert call.1 call.2).1) empty

/-- The entries are those of the names. -/
theorem mem_entries_iff {m : Mapping} {name : String} {entry : Entry} :
    (name, entry) ∈ m.entries ↔ m.get? name = some entry := by
  rw [entries, Raw.entries, List.mem_filterMap]
  constructor
  · rintro ⟨n, -, hn⟩
    obtain ⟨e, he, heq⟩ := Option.map_eq_some_iff.1 hn
    cases heq
    exact he
  · intro h
    have hname : name ∈ m.order := m.consistent.mem_order_iff.2 (Option.isSome_of_eq_some h)
    exact ⟨name, hname, Option.map_eq_some_iff.2 ⟨entry, h, rfl⟩⟩

theorem mem_entries_of_get? {m : Mapping} {name : String} {entry : Entry}
    (h : m.get? name = some entry) : (name, entry) ∈ m.entries :=
  mem_entries_iff.2 h

theorem names_entries (m : Mapping) : m.entries.map Prod.fst = m.order := by
  rw [entries, Raw.entries, List.map_filterMap]
  have hnames : ∀ name ∈ m.order, (m.toRaw.item? name).map Prod.fst = some name := by
    intro name hname
    obtain ⟨entry, hentry⟩ := Option.isSome_iff_exists.1 (m.consistent.mem_order_iff.1 hname)
    rw [Raw.item?, hentry]
    rfl
  rw [List.filterMap_congr hnames, List.filterMap_some]

theorem size_eq_length (m : Mapping) : m.size = m.entries.length := by
  rw [← List.length_map Prod.fst, names_entries]
  rfl

/-- Looking a name up in the table is looking for it among the entries. -/
theorem get?_eq_find? (m : Mapping) (name : String) :
    m.get? name = (m.entries.find? fun e => e.1 = name).map Prod.snd := by
  cases hfind : m.entries.find? fun e => e.1 = name with
  | none =>
    refine Option.eq_none_iff_forall_ne_some.2 fun entry hentry => ?_
    simpa using List.find?_eq_none.1 hfind _ (mem_entries_of_get? hentry)
  | some e =>
    obtain ⟨key, entry⟩ := e
    obtain rfl : key = name := by simpa using List.find?_some hfind
    exact mem_entries_iff.1 (List.mem_of_find?_eq_some hfind)

/-! ## Look-ups -/

/-- A name that is found has the entry of its key, and an index that the entry has. -/
theorem lookup_eq_found {m : Mapping} {suffix : Option String} {name : String}
    {resolved : Resolved} (h : m.lookup suffix name = .found resolved) :
    m.get? resolved.key = some resolved.entry ∧
      ∀ index ∈ resolved.element, index < resolved.entry.arraySize := by
  unfold lookup at h
  split at h
  next entry hentry =>
    cases h
    exact ⟨hentry, by simp⟩
  next =>
    split at h
    · cases h
    · split at h
      · cases h
      next entry hentry =>
        split at h
        next hindex =>
          cases h
          refine ⟨hentry, fun index hmem => ?_⟩
          cases hmem
          exact hindex
        next => cases h

theorem exists_lookup_of_resolveAmong {m : Mapping} {shader name : String} {suffix : Option String}
    {candidates : List String} {failure : Option ShaderError} {resolved : Resolved}
    (h : m.resolveAmong shader name suffix candidates failure = .ok resolved) :
    ∃ candidate ∈ candidates, m.lookup suffix candidate = .found resolved := by
  induction candidates generalizing failure with
  | nil => cases h
  | cons candidate candidates ih =>
    unfold resolveAmong at h
    split at h
    next hfound =>
      cases h
      exact ⟨candidate, List.mem_cons_self, hfound⟩
    next =>
      obtain ⟨c, hc, hfound⟩ := ih h
      exact ⟨c, List.mem_cons_of_mem _ hc, hfound⟩
    next =>
      obtain ⟨c, hc, hfound⟩ := ih h
      exact ⟨c, List.mem_cons_of_mem _ hc, hfound⟩

/-- A resource that was found has the entry of its key. -/
theorem get?_of_resolve {m : Mapping} {shader name : String} {altName suffix : Option String}
    {resolved : Resolved} (h : m.resolve shader name altName suffix = .ok resolved) :
    m.get? resolved.key = some resolved.entry :=
  let ⟨_, _, hfound⟩ := exists_lookup_of_resolveAmong h
  (lookup_eq_found hfound).1

/-- A resource that was found as an element has an index that the entry has. -/
theorem element_lt_of_resolve {m : Mapping} {shader name : String} {altName suffix : Option String}
    {resolved : Resolved} (h : m.resolve shader name altName suffix = .ok resolved) :
    ∀ index ∈ resolved.element, index < resolved.entry.arraySize :=
  let ⟨_, _, hfound⟩ := exists_lookup_of_resolveAmong h
  (lookup_eq_found hfound).2

/-- A name that the layout has as a whole is found so, whatever the suffix. -/
theorem resolve_of_get? {m : Mapping} {name : String} {entry : Entry}
    (h : m.get? name = some entry) (shader : String) (altName suffix : Option String) :
    m.resolve shader name altName suffix = .ok ⟨name, entry, none⟩ := by
  simp only [resolve, resolveAmong, lookup, h]

/-- A name that no suffix takes apart is found as a whole or not at all. -/
theorem resolve_of_parse?_eq_none {m : Mapping} {suffix name : String} {resolved : Resolved}
    (h : ElementName.parse? suffix name = none) (shader : String) :
    m.resolve shader name none (some suffix) = .ok resolved ↔
      ∃ entry, m.get? name = some entry ∧ resolved = ⟨name, entry, none⟩ := by
  cases hget : m.get? name with
  | none =>
    simp [resolve, resolveAmong, lookup, hget, h]
  | some entry =>
    simp [resolve, resolveAmong, lookup, hget, eq_comm]

/-- A name that is only known as an element is found in the array that has its index. -/
theorem resolve_of_parse?_eq_some {m : Mapping} {suffix name : String} {n : ElementName}
    {resolved : Resolved} (hname : m.get? name = none)
    (h : ElementName.parse? suffix name = some n) (shader : String) :
    m.resolve shader name none (some suffix) = .ok resolved ↔
      ∃ entry, m.get? n.base = some entry ∧ n.index < entry.arraySize ∧
        resolved = ⟨n.base, entry, some n.index⟩ := by
  cases hget : m.get? n.base with
  | none => simp [resolve, resolveAmong, lookup, hname, h, hget]
  | some entry =>
    by_cases hindex : n.index < entry.arraySize <;>
      simp [resolve, resolveAmong, lookup, hname, h, hget, hindex, eq_comm]

/-- An empty suffix takes no name apart. -/
theorem parse?_usable (suffix : Option String) (name : String) :
    ((ResourceList.usable suffix).bind fun s => ElementName.parse? s name) =
      suffix.bind fun s => ElementName.parse? s name := by
  cases suffix with
  | none => rfl
  | some s =>
    by_cases hs : s.isEmpty
    · simp only [ResourceList.usable, Option.filter_some, hs, Bool.not_true, Bool.false_eq_true,
        if_false, Option.bind_none, Option.bind_some, ElementName.parse?_of_isEmpty hs]
    · simp only [ResourceList.usable, Option.filter_some, hs, Bool.not_false, if_true]

theorem lookup_usable (m : Mapping) (suffix : Option String) (name : String) :
    m.lookup (ResourceList.usable suffix) name = m.lookup suffix name := by
  unfold lookup
  rw [parse?_usable]

theorem resolve_usable (m : Mapping) (shader name : String) (altName suffix : Option String) :
    m.resolve shader name altName (ResourceList.usable suffix) =
      m.resolve shader name altName suffix := by
  have hamong : ∀ candidates failure,
      m.resolveAmong shader name (ResourceList.usable suffix) candidates failure =
        m.resolveAmong shader name suffix candidates failure := by
    intro candidates
    induction candidates with
    | nil => exact fun _ => rfl
    | cons candidate candidates ih =>
      intro failure
      simp only [resolveAmong, lookup_usable, ih]
  exact hamong _ _

end Mapping

end ShaderBind
