import ShaderBind.Proofs.Text.Border
import ShaderBind.Proofs.Text.Decimal
import ShaderBind.Proofs.Text.Position
import ShaderBind.Resource.ElementName

/-!
# Element names taken apart

A name splits into an array's name, the suffix and an index (`ElementName.Splits`), possibly in
several ways. The search looks at the occurrences of the suffix from the right. Each window it takes
ends between two characters and is shorter than the one before, and a suffix that an index follows
cannot end between the old window's last occurrence and the new window's end, so none is passed over
(`search_finds`). Hence a name is always read, and as the split with the longest array's name
(`read?_rightmost`).

If the suffix is not made of digits alone, its last other character is the last one of the name, and
there is one split only (`Splits.unique`). So a name that was put together is taken apart again
(`read?_element`).
-/

namespace ShaderBind.ElementName

/-! ## Splits -/

/-- `name` is made of an array's name, the suffix, and an index in digits that fits a signed
number. -/
structure Splits (suffix name base digits : String) : Prop where
  suffix_ne : suffix ≠ ""
  base_ne : base ≠ ""
  digits_ne : digits ≠ ""
  name_eq : name = base ++ suffix ++ digits
  isDigit : ∀ c ∈ digits.toList, Text.isDigit c = true
  value_lt : Text.decimalValue digits.toList < Text.signBit

theorem index?_eq_some_iff {base digits : List Char} {index : Int} :
    index? base digits = some index ↔
      base ≠ [] ∧ digits ≠ [] ∧ (∀ c ∈ digits, Text.isDigit c = true) ∧
        Text.decimalValue digits < Text.signBit ∧ index = Text.decimalValue digits := by
  unfold index?
  split
  next h =>
    obtain ⟨hbase, hne, hdigits⟩ := h
    have hdigits : ∀ c ∈ digits, Text.isDigit c = true := by simpa using hdigits
    rw [Text.readInt?_of_isDigit hne hdigits]
    split
    next hlt => exact ⟨fun h => ⟨hbase, hne, hdigits, hlt, (Option.some.inj h).symm⟩,
      fun h => congrArg some h.2.2.2.2.symm⟩
    next hge => exact ⟨fun h => (Option.some_ne_none _ h.symm).elim, fun h => (hge h.2.2.2.1).elim⟩
  next h =>
    refine ⟨fun h => (Option.some_ne_none _ h.symm).elim, fun hall => (h ?_).elim⟩
    exact ⟨hall.1, hall.2.1, by simpa using hall.2.2.1⟩

namespace Splits

variable {suffix name base digits : String}

theorem toList_eq (h : Splits suffix name base digits) :
    name.toList = base.toList ++ (suffix.toList ++ digits.toList) := by
  rw [h.name_eq, String.toList_append, String.toList_append, List.append_assoc]

/-- The index of a split is the one that the search sees there. -/
theorem index?_eq (h : Splits suffix name base digits) :
    index? base.toList digits.toList = some (Text.decimalValue digits.toList : Int) :=
  index?_eq_some_iff.2 ⟨by simpa using h.base_ne, by simpa using h.digits_ne, h.isDigit, h.value_lt,
    rfl⟩

/-- The array's name with the suffix is a front part of the name. -/
theorem isPrefix (h : Splits suffix name base digits) :
    base.toList ++ suffix.toList <+: name.toList :=
  ⟨digits.toList, by rw [h.toList_eq, List.append_assoc]⟩

end Splits

/-! ## The search -/

/-- What the suffixes that end within `stop` bytes of a name make of it. -/
inductive Finds (suffix name : String) (stop : Nat) : Reading → Prop
  | element {base digits : String} (split : Splits suffix name base digits)
      (longest : ∀ base' digits', Splits suffix name base' digits' →
        Text.bytes base'.toList + Text.bytes suffix.toList ≤ stop → base'.length ≤ base.length) :
      Finds suffix name stop ⟨base, Text.decimalValue digits.toList⟩
  | whole (none : ∀ base' digits', Splits suffix name base' digits' →
      stop < Text.bytes base'.toList + Text.bytes suffix.toList) :
      Finds suffix name stop (.whole name)

section

variable {suffix name base digits : String} {stop : Nat} {window rest before after : List Char}

/-- A suffix that ends within the window occurs in it. -/
theorem Splits.exists_window (h : Splits suffix name base digits)
    (hname : name.toList = window ++ rest)
    (hle : Text.bytes base.toList + Text.bytes suffix.toList ≤ Text.bytes window) :
    ∃ a, window = base.toList ++ (suffix.toList ++ a) := by
  obtain ⟨a, ha⟩ := Text.prefix_of_bytes_le h.isPrefix (hname ▸ List.prefix_append window rest)
    (by rwa [Text.bytes_append])
  exact ⟨a, by rw [← ha, List.append_assoc]⟩

/-- What the last suffix of a window cuts off, in the name. -/
theorem toList_eq_of_splitLast? (hname : name.toList = window ++ rest)
    (hlast : Text.splitLast? suffix.toList window = some (before, after)) :
    name.toList = before ++ (suffix.toList ++ (after ++ rest)) := by
  rw [hname, Text.eq_append_of_splitLast? hlast]
  simp

/-- No split whose suffix ends within the window has a longer base than the last occurrence. -/
theorem Splits.length_le (h : Splits suffix name base digits)
    (hname : name.toList = window ++ rest)
    (hlast : Text.splitLast? suffix.toList window = some (before, after))
    (hle : Text.bytes base.toList + Text.bytes suffix.toList ≤ Text.bytes window) :
    base.length ≤ before.length := by
  obtain ⟨a, ha⟩ := h.exists_window hname hle
  rw [← String.length_toList]
  exact Text.length_le_of_splitLast? hlast ha

/-- If no index follows the last occurrence, a split that ends within the window also ends within
the next one. -/
theorem Splits.le_boundaryBelow (h : Splits suffix name base digits)
    (hname : name.toList = window ++ rest)
    (hlast : Text.splitLast? suffix.toList window = some (before, after))
    (hindex : index? before (after ++ rest) = none)
    (hle : Text.bytes base.toList + Text.bytes suffix.toList ≤ Text.bytes window) :
    Text.bytes base.toList + Text.bytes suffix.toList ≤
      Text.boundaryBelow name.toList (Text.bytes before + Text.bytes suffix.toList - 1) := by
  have hname' := toList_eq_of_splitLast? hname hlast
  have hne : base.length ≠ before.length := by
    intro hlength
    have heq := h.toList_eq.symm.trans hname'
    obtain ⟨hbase, hdigits⟩ := List.append_inj heq (by rw [String.length_toList, hlength])
    have hindex' := h.index?_eq
    rw [hbase, List.append_cancel_left hdigits, hindex] at hindex'
    cases hindex'
  have hbytes : Text.bytes base.toList < Text.bytes before := by
    refine Text.bytes_lt_of_length_lt (s := name.toList) ⟨_, h.toList_eq.symm⟩ ⟨_, hname'.symm⟩ ?_
    rw [String.length_toList]
    exact Nat.lt_of_le_of_ne (h.length_le hname hlast hle) hne
  refine Text.le_boundaryBelow (Text.isBoundary_iff.2 ⟨_, h.isPrefix, Text.bytes_append _ _⟩) ?_
  omega

/-- An index that the search sees makes a split. -/
theorem splits_of_index? (hsuffix : suffix.toList ≠ [])
    (hname : name.toList = before ++ (suffix.toList ++ after)) {index : Int}
    (h : index? before after = some index) :
    Splits suffix name (String.ofList before) (String.ofList after) := by
  obtain ⟨hbase, hne, hdigits, hlt, -⟩ := index?_eq_some_iff.1 h
  refine ⟨by simpa using hsuffix, by simpa using hbase, by simpa using hne, ?_,
    by simpa using hdigits, by simpa using hlt⟩
  apply String.toList_injective
  simpa using hname

theorem Finds.widen {r : Reading} {stop' : Nat} (h : Finds suffix name stop r)
    (hall : ∀ base' digits', Splits suffix name base' digits' →
      Text.bytes base'.toList + Text.bytes suffix.toList ≤ stop' →
      Text.bytes base'.toList + Text.bytes suffix.toList ≤ stop) :
    Finds suffix name stop' r := by
  cases h with
  | element split longest =>
    exact .element split fun base' digits' h hle => longest base' digits' h (hall _ _ h hle)
  | whole hnone =>
    refine .whole fun base' digits' h => Nat.lt_of_not_le fun hle => ?_
    exact Nat.not_lt.2 (hall base' digits' h hle) (hnone base' digits' h)

/-- From any position between characters the search comes to an end, and finds what there is. -/
theorem search_finds (hsuffix : suffix.toList ≠ [])
    (hstop : Text.isBoundary name.toList stop = true) :
    ∃ r, search suffix.toList name.toList hsuffix stop = some r ∧ Finds suffix name stop r := by
  -- the windows get shorter from step to step
  induction stop using Nat.strong_induction_on with
  | _ stop ih =>
  rw [search]
  split
  next hcut => simp [Text.isBoundary, hcut] at hstop
  next window rest hcut =>
    obtain ⟨hname, rfl⟩ := Text.cutAt?_eq_some hcut
    split
    next hnone =>
      refine ⟨_, rfl, ?_⟩
      rw [String.ofList_toList]
      refine .whole fun base' digits' h => Nat.lt_of_not_le fun hle => ?_
      obtain ⟨a, ha⟩ := h.exists_window hname hle
      rw [ha] at hnone
      exact Text.splitLast?_ne_none _ _ _ hnone
    next before after hlast =>
      have hname' := toList_eq_of_splitLast? hname hlast
      have hcut' : Text.cutAt? (Text.bytes before + Text.bytes suffix.toList) name.toList =
          some (before ++ suffix.toList, after ++ rest) := by
        rw [Text.cutAt?_eq_some_iff, Text.bytes_append, hname', List.append_assoc]
        exact ⟨rfl, rfl⟩
      simp only [hcut']
      split
      next index hindex =>
        have hsplit := splits_of_index? hsuffix hname' hindex
        obtain ⟨-, -, -, -, rfl⟩ := index?_eq_some_iff.1 hindex
        have hfinds : Finds suffix name (Text.bytes window) _ :=
          .element hsplit fun base' digits' h hle => by
            rw [String.length_ofList]
            exact h.length_le hname hlast hle
        rw [String.toList_ofList] at hfinds
        exact ⟨_, rfl, hfinds⟩
      next hindex =>
        obtain ⟨r, hr, hfinds⟩ :=
          ih _ (next_lt hsuffix hlast) (Text.isBoundary_boundaryBelow _ _)
        exact ⟨r, hr, hfinds.widen fun _ _ h => h.le_boundaryBelow hname hlast hindex⟩

end

/-! ## Names that are read -/

/-- The suffix of a split ends within the name. -/
theorem Splits.bytes_le {suffix name base digits : String} (h : Splits suffix name base digits) :
    Text.bytes base.toList + Text.bytes suffix.toList ≤ Text.bytes name.toList := by
  rw [h.toList_eq, Text.bytes_append, Text.bytes_append]
  omega

theorem read?_finds (suffix name : String) :
    ∃ r, read? suffix name = some r ∧ Finds suffix name (Text.bytes name.toList) r := by
  unfold read?
  split
  next hsuffix =>
    exact ⟨_, rfl, .whole fun _ _ h => (h.suffix_ne (by simpa using hsuffix)).elim⟩
  next hsuffix =>
    exact search_finds hsuffix (Text.isBoundary_iff.2 ⟨_, List.prefix_refl _, rfl⟩)

/-- Every name is read, whatever characters it and the suffix are made of. It is an element's
exactly if it splits, and then it is read as the split with the longest name of an array, with the
index that the digits denote; otherwise it is read as a whole. -/
theorem read?_rightmost (suffix name : String) :
    ∃ r, read? suffix name = some r ∧
      (r.isValid = true ↔ ∃ base digits, Splits suffix name base digits) ∧
      (r.isValid = true → ∃ digits, Splits suffix name r.base digits ∧
        r.index = Text.decimalValue digits.toList ∧
        ∀ base' digits', Splits suffix name base' digits' → base'.length ≤ r.base.length) ∧
      (r.isValid = false → r = ⟨name, -1⟩) := by
  obtain ⟨r, hr, hfinds⟩ := read?_finds suffix name
  refine ⟨r, hr, ?_⟩
  cases hfinds with
  | @element base digits split longest =>
    have hvalid : (⟨base, Text.decimalValue digits.toList⟩ : Reading).isValid = true := by
      simp [Reading.isValid]
    simp only [hvalid, true_iff, true_implies, Bool.true_eq_false, false_implies, and_true]
    exact ⟨⟨base, digits, split⟩, digits, split, rfl,
      fun base' digits' h => longest base' digits' h h.bytes_le⟩
  | whole hnone =>
    have hinvalid : (Reading.whole name).isValid = false := rfl
    simp only [hinvalid, Bool.false_eq_true, false_iff, false_implies, true_and, true_implies]
    refine ⟨?_, rfl⟩
    rintro ⟨base, digits, h⟩
    exact Nat.not_lt.2 h.bytes_le (hnone base digits h)

example : read? "xx" "Texxx3" = some ⟨"Tex", 3⟩ := by decide +kernel

example : read? "éaé" "téaéaé9999999999éaé" = some ⟨"téaéaé9999999999éaé", -1⟩ := by
  decide +kernel

/-! ## Names put together -/

/-- A suffix that is not made of digits alone ends at its last other character, which is the last
one of the name. -/
theorem Splits.unique {suffix name base digits base' digits' : String}
    (hsuffix : ∃ c ∈ suffix.toList, Text.isDigit c = false)
    (h : Splits suffix name base digits) (h' : Splits suffix name base' digits') :
    base = base' ∧ digits = digits' := by
  -- the digits at the end of the name: those of the index, and those that the suffix ends in
  have htail : ∀ {b d : String}, Splits suffix name b d →
      name.toList.reverse.takeWhile Text.isDigit =
        d.toList.reverse ++ suffix.toList.reverse.takeWhile Text.isDigit := by
    intro b d h
    have hdigits : ∀ c ∈ d.toList.reverse, Text.isDigit c = true :=
      fun c hc => h.isDigit c (List.mem_reverse.1 hc)
    have hother : ∃ c ∈ suffix.toList.reverse, Text.isDigit c = false := by simpa using hsuffix
    rw [h.toList_eq, List.reverse_append, List.reverse_append, List.append_assoc,
      List.takeWhile_append_of_pos hdigits, Text.takeWhile_append_of_exists hother]
  have hdigits : digits = digits' := by
    have heq := (htail h).symm.trans (htail h')
    exact String.toList_injective (List.reverse_injective (List.append_cancel_right heq))
  refine ⟨?_, hdigits⟩
  have heq := h.toList_eq.symm.trans h'.toList_eq
  rw [hdigits] at heq
  exact String.toList_injective (List.append_cancel_right heq)

theorem splits_append {suffix base : String} (hsuffix : suffix ≠ "") (hbase : base ≠ "") {k : Nat}
    (hk : k < Text.signBit) : Splits suffix (base ++ suffix ++ toString k) base (toString k) where
  suffix_ne := hsuffix
  base_ne := hbase
  digits_ne := by simp
  name_eq := rfl
  isDigit := fun _ => Text.isDigit_of_mem_repr
  value_lt := by
    rw [show (toString k).toList = k.repr.toList from rfl, Text.decimalValue_repr]
    exact hk

/-- Names of elements are read back. Let the suffix have a character that is no digit. Then the
name put together from any array's name, the suffix and an index is read as just these, and no other
array and index have that name. -/
theorem read?_element {suffix base : String} {k : Nat}
    (hsuffix : ∃ c ∈ suffix.toList, Text.isDigit c = false) (hbase : base ≠ "")
    (hk : k < Text.signBit) :
    read? suffix (base ++ suffix ++ toString k) = some ⟨base, k⟩ ∧
      ∀ base' k', base' ≠ "" → k' < Text.signBit →
        base ++ suffix ++ toString k = base' ++ suffix ++ toString k' → base = base' ∧ k = k' := by
  have hne : suffix ≠ "" := by
    rintro rfl
    obtain ⟨c, hc, -⟩ := hsuffix
    cases hc
  have hsplit := splits_append hne hbase hk
  constructor
  · obtain ⟨r, hr, hfinds⟩ := read?_finds suffix (base ++ suffix ++ toString k)
    rw [hr]
    cases hfinds with
    | element split _ =>
      obtain ⟨rfl, rfl⟩ := hsplit.unique hsuffix split
      rw [show (toString k).toList = k.repr.toList from rfl, Text.decimalValue_repr]
    | whole hnone => exact absurd hsplit.bytes_le (Nat.not_le.2 (hnone _ _ hsplit))
  · intro base' k' hbase' hk' hname
    have hsplit' := splits_append hne hbase' hk'
    rw [← hname] at hsplit'
    obtain ⟨rfl, hdigits⟩ := hsplit.unique hsuffix hsplit'
    have hvalue : Text.decimalValue k.repr.toList = Text.decimalValue k'.repr.toList :=
      congrArg (fun d : String => Text.decimalValue d.toList) hdigits
    rw [Text.decimalValue_repr, Text.decimalValue_repr] at hvalue
    exact ⟨rfl, hvalue⟩

/-- The array's name holds the suffix and ends in it, and the suffix ends in a digit. -/
theorem read?_element_doubled :
    (∃ c ∈ "x1".toList, Text.isDigit c = false) ∧ 12 < Text.signBit ∧
      read? "x1" ("tx12x1" ++ "x1" ++ toString 12) = some ⟨"tx12x1", 12⟩ := by
  have hsuffix : ∃ c ∈ "x1".toList, Text.isDigit c = false := ⟨'x', by decide, by decide⟩
  exact ⟨hsuffix, by decide, (read?_element hsuffix (by decide) (by decide)).1⟩

/-! ## Elements -/

/-- An empty suffix takes no name apart. -/
theorem parse?_of_isEmpty {suffix : String} (h : suffix.isEmpty = true) (name : String) :
    parse? suffix name = none := by
  obtain rfl := String.isEmpty_iff.1 h
  rfl

theorem exists_splits_of_parse? {suffix name : String} {n : ElementName}
    (h : parse? suffix name = some n) :
    ∃ digits, Splits suffix name n.base digits ∧
      n.index.toNat = Text.decimalValue digits.toList := by
  obtain ⟨r, hr, h⟩ := Option.bind_eq_some_iff.1 h
  obtain ⟨r', hr', hfinds⟩ := read?_finds suffix name
  obtain rfl : r = r' := Option.some.inj (hr.symm.trans hr')
  cases hfinds with
  | @element base digits split longest =>
    rw [Reading.element?, if_pos (by simp [Reading.isValid])] at h
    cases h
    refine ⟨digits, split, ?_⟩
    rw [Int.toNat_natCast, UInt32.toNat_ofNat_of_lt' (Nat.lt_trans split.value_lt (by decide))]
  | whole hnone => cases h

/-- An index that a name ends in has a successor. -/
theorem toNat_index_succ {suffix name : String} {n : ElementName}
    (h : parse? suffix name = some n) : (n.index + 1).toNat = n.index.toNat + 1 := by
  obtain ⟨digits, hsplit, hindex⟩ := exists_splits_of_parse? h
  have hlt : Text.decimalValue digits.toList < 2147483648 := hsplit.value_lt
  rw [UInt32.toNat_add, UInt32.toNat_one, Nat.mod_eq_of_lt]
  omega

end ShaderBind.ElementName
