import ShaderBind.Text.Number

/-!
# Digits, and numbers read back

A character is never white space and a decimal digit at once (`isSpace_of_isDecimalDigit`), so a
reader that takes runs of one class and then of the other cuts a text in one way only. A word that
is written in decimal is read back as itself (`readWord?_toString`, `readInt?_repr`), and what is
read as a number holds digits and a sign at most (`mem_of_readWord?`, `mem_of_readInt?`).
-/

namespace ShaderBind.Text

/-! ## Classes -/

theorem inRanges_eq_true_iff {ranges : List (Nat × Nat)} {c : Char} :
    inRanges ranges c = true ↔ ∃ r ∈ ranges, r.1 ≤ c.toNat ∧ c.toNat ≤ r.2 := by
  simp [inRanges, List.any_eq_true]

/-- Ranges that lie apart pairwise have no character in common. -/
theorem inRanges_eq_false_of_apart {rs ss : List (Nat × Nat)}
    (apart : ∀ r ∈ rs, ∀ s ∈ ss, r.2 < s.1 ∨ s.2 < r.1) {c : Char} (h : inRanges rs c = true) :
    inRanges ss c = false := by
  obtain ⟨r, hr, hlo, hhi⟩ := inRanges_eq_true_iff.1 h
  rw [Bool.eq_false_iff]
  intro hs
  obtain ⟨s, hs, hlo', hhi'⟩ := inRanges_eq_true_iff.1 hs
  have := apart r hr s hs
  omega

/-- No decimal digit is white space. -/
theorem isSpace_of_isDecimalDigit {c : Char} (h : isDecimalDigit c = true) : isSpace c = false :=
  inRanges_eq_false_of_apart (by decide) h

theorem isDigit_eq (c : Char) : isDigit c = c.isDigit := by
  simp only [isDigit, Char.isDigit, Char.le_def]

/-- An ASCII digit is a decimal digit. -/
theorem isDecimalDigit_of_isDigit {c : Char} (h : isDigit c = true) : isDecimalDigit c = true := by
  rw [isDecimalDigit, inRanges_eq_true_iff]
  refine ⟨(0x30, 0x39), by simp [decimalDigitRanges], ?_⟩
  simpa [isDigit, Char.le_def, UInt32.le_iff_toNat_le] using h

/-! ## Numbers -/

theorem decimalValue_eq (ds : List Char) : decimalValue ds = Nat.ofDigitChars 10 ds 0 := by
  rw [decimalValue, Nat.ofDigitChars_eq_foldl]

/-- The digits of a number are digits. -/
theorem isDigit_of_mem_repr {n : Nat} {c : Char} (h : c ∈ n.repr.toList) : isDigit c = true := by
  rw [isDigit_eq]
  rw [Nat.toList_repr] at h
  exact Nat.isDigit_of_mem_toDigits (by omega) (by omega) h

theorem isDigit_of_mem_toString {n : UInt32} {c : Char} (h : c ∈ (toString n).toList) :
    isDigit c = true :=
  isDigit_of_mem_repr h

theorem repr_toList_ne_nil (n : Nat) : n.repr.toList ≠ [] := by
  rw [Nat.toList_repr]
  exact Nat.toDigits_ne_nil

theorem decimalValue_repr (n : Nat) : decimalValue n.repr.toList = n := by
  rw [decimalValue_eq, Nat.toList_repr, Nat.ofDigitChars_ten_toDigits]

/-- A number that is written in decimal is read back. -/
theorem readNat?_repr (n : Nat) : readNat? n.repr.toList = some n := by
  have hdigits : ∀ c ∈ n.repr.toList, isDigit c = true := fun c => isDigit_of_mem_repr
  rw [readNat?, if_pos ⟨repr_toList_ne_nil n, by simpa using hdigits⟩, decimalValue_repr]

/-- A word that is written in decimal is read back. -/
theorem readWord?_toString (n : UInt32) : readWord? (toString n).toList = some n := by
  have hplus : readWord? (toString n).toList =
      (readNat? (toString n).toList).bind fun m =>
        if m < UInt32.size then some (UInt32.ofNat m) else none := by
    unfold readWord?
    split
    · rename_i ds h
      exact absurd (isDigit_of_mem_toString (n := n) (c := '+') (by rw [h]; simp)) (by decide)
    · rfl
  have hnat : readNat? (toString n).toList = some n.toNat := readNat?_repr n.toNat
  rw [hplus, hnat, Option.bind_some, if_pos n.toNat_lt, UInt32.ofNat_toNat]

/-- Digits without a sign are read as the number they denote, if it is one of 31 bits. -/
theorem readInt?_of_isDigit {ds : List Char} (hne : ds ≠ []) (hds : ∀ c ∈ ds, isDigit c = true) :
    readInt? ds = if decimalValue ds < signBit then some (decimalValue ds : Int) else none := by
  have hnat : readNat? ds = some (decimalValue ds) := if_pos ⟨hne, by simpa using hds⟩
  unfold readInt?
  split
  next => exact absurd (hds '-' (by simp)) (by decide)
  next => exact absurd (hds '+' (by simp)) (by decide)
  next => rw [hnat, Option.bind_some]

/-- A number of 31 bits that is written in decimal is read back as a signed number. -/
theorem readInt?_repr {n : Nat} (h : n < signBit) : readInt? n.repr.toList = some (n : Int) := by
  rw [readInt?_of_isDigit (repr_toList_ne_nil n) fun c => isDigit_of_mem_repr, decimalValue_repr,
    if_pos h]

/-- What is read as a natural number is made of digits. -/
theorem isDigit_of_readNat? {ds : List Char} {n : Nat} (h : readNat? ds = some n) {c : Char}
    (hc : c ∈ ds) : isDigit c = true := by
  unfold readNat? at h
  split at h
  · rename_i hds
    exact List.all_eq_true.1 hds.2 c hc
  · cases h

/-- What is read as a word is made of digits and a plus sign at most. -/
theorem mem_of_readWord? {s : List Char} {n : UInt32} (h : readWord? s = some n) {c : Char}
    (hc : c ∈ s) : isDigit c = true ∨ c = '+' := by
  obtain ⟨m, hm, -⟩ := Option.bind_eq_some_iff.1 h
  split at hm
  · rcases List.mem_cons.1 hc with rfl | hc
    · exact .inr rfl
    · exact .inl (isDigit_of_readNat? hm hc)
  · exact .inl (isDigit_of_readNat? hm hc)

/-- What is read as a signed number is made of digits and signs. -/
theorem mem_of_readInt? {s : List Char} {n : Int} (h : readInt? s = some n) {c : Char}
    (hc : c ∈ s) : isDigit c = true ∨ c = '-' ∨ c = '+' := by
  unfold readInt? at h
  split at h
  · obtain ⟨m, hm, -⟩ := Option.bind_eq_some_iff.1 h
    rcases List.mem_cons.1 hc with rfl | hc
    · exact .inr (.inl rfl)
    · exact .inl (isDigit_of_readNat? hm hc)
  · obtain ⟨m, hm, -⟩ := Option.bind_eq_some_iff.1 h
    rcases List.mem_cons.1 hc with rfl | hc
    · exact .inr (.inr rfl)
    · exact .inl (isDigit_of_readNat? hm hc)
  · obtain ⟨m, hm, -⟩ := Option.bind_eq_some_iff.1 h
    exact .inl (isDigit_of_readNat? hm hc)

end ShaderBind.Text
